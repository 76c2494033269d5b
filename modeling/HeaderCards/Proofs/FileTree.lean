import HeaderCards.FileTree
import HeaderCards.Proofs.Outcome
import Mathlib.Data.List.DropRight

/-!
# Reading what has been written

A path is followed through folders only, so that putting a file where no folder is leaves every
path as it was. A file that has been written is therefore read back through the same path, and
every other place is as it was.
-/

namespace HeaderCards.FileTree

variable {t : FileTree} {place : List Text}

/-- A path is followed through its front, and from there on. -/
theorem follow_append (t : FileTree) (place cs ds : List Text) :
    t.follow place (cs ++ ds) = t.follow place cs >>= (t.follow · ds) := by
  induction cs generalizing place with
  | nil => rfl
  | cons c cs ih =>
    rw [List.cons_append, follow, follow]
    cases t.find? place with
    | none => rfl
    | some n =>
      cases n with
      | file bytes => rfl
      | folder =>
        simp only [ih]
        split
        · rfl
        · split
          · rfl
          · split <;> rfl

/-- A single dot stays at a folder. -/
theorem follow_dot_eq_ok_iff {p : List Text} :
    t.follow place [['.']] = .ok p ↔ t.find? place = some .folder ∧ p = place := by
  rw [follow]
  cases t.find? place with
  | none => simp
  | some n => cases n <;> simp [follow, eq_comm]

/-- A file that is put where no folder is leaves every path as it was. -/
theorem follow_put (h : t.find? place ≠ some .folder) (n : Node) {start p cs : List Text}
    (hp : t.follow start cs = .ok p) : (t.put place n).follow start cs = .ok p := by
  induction cs generalizing start with
  | nil => exact hp
  | cons c cs ih =>
    rw [follow] at hp
    cases hstart : t.find? start with
    | none => simp [hstart] at hp
    | some m =>
      cases m with
      | file bytes => simp [hstart] at hp
      | folder =>
        have hne : start ≠ place := by
          rintro rfl
          exact h hstart
        rw [follow, find?_put_of_ne t hne, hstart]
        simp only [hstart] at hp ⊢
        split at hp
        · next hc => rw [if_pos hc, ih hp]
        · next hc =>
          rw [if_neg hc]
          split at hp
          · next hc => rw [if_pos hc, ih hp]
          · next hc =>
            rw [if_neg hc]
            split at hp
            · contradiction
            · next hc => rw [if_neg hc, ih hp]

/-- A path at which a file would be put leads there, and no folder is there. -/
theorem of_target {path : Text} (h : t.target path = .ok place) :
    checkPath path = .ok () ∧ t.follow [] (path.splitOn '/') = .ok place ∧
      t.find? place ≠ some .folder := by
  rw [target] at h
  obtain ⟨⟨⟩, hcheck, h⟩ := bind_eq_ok_iff.mp h
  obtain ⟨folder, hfolder, h⟩ := bind_eq_ok_iff.mp h
  simp only at h
  split at h
  · contradiction
  · next hname =>
    obtain ⟨p, hp, h⟩ := bind_eq_ok_iff.mp h
    have hslash : path.getLast? ≠ some '/' := fun he => hname (by simp [he])
    have hpath : (path.reverse.dropWhile (· = '/')).reverse = path := by
      refine List.rdropWhile_eq_self_iff.mpr fun hne he => hslash ?_
      rw [List.getLast?_eq_some_getLast hne, of_decide_eq_true he]
    have hnames : (path.splitOn '/').dropLast ++ [(path.splitOn '/').getLast?.getD []] =
        path.splitOn '/' := by
      rw [List.getLast?_eq_some_getLast (List.splitOn_ne_nil '/' path), Option.getD_some,
        List.dropLast_concat_getLast]
    rw [hpath] at hfolder hp
    rw [follow_append] at hfolder
    obtain ⟨q, hq, hdot⟩ := bind_eq_ok_iff.mp hfolder
    obtain ⟨-, rfl⟩ := follow_dot_eq_ok_iff.mp hdot
    have hfollow : t.follow [] (path.splitOn '/') = .ok p := by
      rw [← hnames, follow_append, hq, ok_bind, hp]
    split at h
    · contradiction
    · next hfree =>
      cases h
      exact ⟨hcheck, hfollow, hfree⟩

/-- What writing leaves behind: the file is at the place its path leads to and is read back through
it, and every other place is as it was. -/
theorem of_write {path content : Text} {written : FileTree}
    (h : t.write path content = .ok written) :
    written.read path = .ok (Utf8.encode content) ∧
      ∃ place, t.follow [] (path.splitOn '/') = .ok place ∧
        written.find? place = some (.file (Utf8.encode content)) ∧
        ∀ other ≠ place, written.find? other = t.find? other := by
  obtain ⟨place, htarget, rfl⟩ := map_eq_ok_iff.mp h
  obtain ⟨hcheck, hfollow, hfree⟩ := of_target htarget
  have hne : place ≠ [] := by
    rintro rfl
    exact hfree rfl
  refine ⟨?_, place, hfollow, find?_put_self t hne _,
    fun other hother => find?_put_of_ne t hother _⟩
  rw [read, hcheck, ok_bind, follow_put hfree _ hfollow, ok_bind, find?_put_self t hne]
  rfl

end HeaderCards.FileTree

import HeaderCards.Catalog
import HeaderCards.Text.Lines

/-!
# Listing

The listing declares every function of a catalog on a line of its own.
-/

namespace HeaderCards

/-- One declaration a line, in order. -/
def listing (ps : List Prototype) : Text := Text.unlines (ps.map Prototype.render)

/-- The declarations of a catalog. -/
def Catalog.listing (c : Catalog) : Text := HeaderCards.listing (c.entries.map Entry.prototype)

end HeaderCards

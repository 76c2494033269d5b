import HeaderCards.CommandLine.Run
import HeaderCards.Text.Lines

/-!
# Help

What the command line says when there is nothing to run.
-/

namespace HeaderCards

/-- The name of the program and its version. -/
def versionText : Text := "blasgen 0.1.0\n"

/-- How the program is called. -/
def usage : Text := "Usage: blasgen [OPTIONS] <HEADER>"

/-- What the program is for. -/
def about : Text :=
  "Generate documented bindings from cblas.h / lapacke.h and the reference sources"

/-- The help text with one line for every option. -/
def shortHelp : Text :=
  Text.unlines
    [about,
     [],
     usage,
     [],
     "Arguments:",
     "  <HEADER>  Header file to parse (cblas.h or lapacke.h)",
     [],
     "Options:",
     "  -d, --doc-dir <DOC_DIR>  Directory holding one documentation source per function",
     "      --family <FAMILY>    Function family. Inferred from the header file name when " ++
       "omitted [possible values: blas, lapack]",
     "      --doc-ext <DOC_EXT>  Documentation file extension (default: c for blas, f for " ++
       "lapack)",
     "  -f, --format <FORMAT>    Output format: report (default), check, json, rust " ++
       "[default: report]",
     "  -o, --output <OUTPUT>    Write output to this file instead of stdout",
     "      --filter <FILTER>    Keep only functions matching this glob. Can be specified " ++
       "multiple times",
     "  -q, --quiet              Do not print per-function status lines",
     "  -v, --verbose            Enable debug logging",
     "  -h, --help               Print help (see more with '--help')",
     "  -V, --version            Print version"]

/-- One option of the long help text. -/
def helpItem (names : Text) (paragraphs : List (List Text)) : List Text :=
  names :: List.intercalate [[]] (paragraphs.map (·.map ("          " ++ ·)))

/-- The help text with a paragraph for every option. -/
def longHelp : Text :=
  Text.unlines <|
    [about, [], usage, [], "Arguments:"] ++
      helpItem "  <HEADER>" [["Header file to parse (cblas.h or lapacke.h)"]] ++
      [[], ("Options:" : Text)] ++
      List.intercalate [[]]
        [helpItem "  -d, --doc-dir <DOC_DIR>"
           [["Directory holding one documentation source per function"]],
         helpItem "      --family <FAMILY>"
           [["Function family. Inferred from the header file name when omitted"],
            ["Possible values:",
             "- blas:   `cblas_*` from cblas.h, documented by the reference BLAS C sources",
             "- lapack: `LAPACKE_*` from lapacke.h, documented by the reference LAPACK " ++
               "Fortran sources"]],
         helpItem "      --doc-ext <DOC_EXT>"
           [["Documentation file extension (default: c for blas, f for lapack)"]],
         helpItem "  -f, --format <FORMAT>"
           [["Output format: report (default), check, json, rust"], ["[default: report]"]],
         helpItem "  -o, --output <OUTPUT>"
           [["Write output to this file instead of stdout"]],
         helpItem "      --filter <FILTER>"
           [["Keep only functions matching this glob. Can be specified multiple times"]],
         helpItem "  -q, --quiet" [["Do not print per-function status lines"]],
         helpItem "  -v, --verbose" [["Enable debug logging"]],
         helpItem "  -h, --help" [["Print help (see a summary with '-h')"]],
         helpItem "  -V, --version" [["Print version"]]]

/-- The outcome when there is nothing to run. -/
def Stop.outcome : Stop → Outcome
  | help long => { code := 0, stdout := if long then longHelp else shortHelp }
  | version => { code := 0, stdout := versionText }
  | misuse =>
    { code := 2,
      stderr := "error: invalid arguments\n\n" ++ usage ++
        "\n\nFor more information, try '--help'.\n" }

/-- Run the program with these arguments in a file tree. -/
def runProgram (arguments : List Text) (tree : FileTree) : Outcome × FileTree :=
  match Options.read arguments with
  | .error stop => (stop.outcome, tree)
  | .ok options => options.runIn FileTree.disk tree

end HeaderCards

import ParamTidy.Json
import ParamTidy.Report

/-!
# Reports as JSON documents

A report has a document when its root and all its paths are text. The members of every object stand in the order of their keys.
-/

namespace ParamTidy

def Outcome.document (o : Outcome) : Json :=
  let encoding := ("encoding".toList,Json.string o.encoding.label.toList)
  let status (s : String) := ("status".toList,Json.string s.toList)
  match o with
  | unchanged _ => .object [encoding, status "unchanged"]
  | simplified n _ => .object [encoding, status "rewritten", ("substitutions".toList,.number n)]
  | wouldSimplify n _ => .object [encoding, status "would_rewrite", ("substitutions".toList,.number n)]

/-- An entry as an object, if its path is text. -/
def Entry.document? (e : Entry) : Option Json :=
  e.path.text?.map fun t =>
    let kind (k : String) := ("kind".toList,Json.string k.toList)
    let path := ("path".toList,Json.string t)
    match e with
    | skippedDirectory _ => .object [kind "skipped_dir", path]
    | skippedFile _ => .object [kind "skipped_file", path]
    | processed _ o => .object [kind "processed", ("outcome".toList,o.document), path]
    | failed _ m => .object [kind "failed", ("message".toList,.string m.toList), path]

/-- A report as an object, if all its paths are text. -/
def Report.document? (r : Report) : Option Json := do
  let root ← r.root.text?
  let entries ← r.entries.mapM Entry.document?
  return .object
    [("entries".toList,.array entries), ("failures".toList,.number r.failures),
      ("files_changed".toList,.number r.filesChanged), ("files_scanned".toList,.number r.filesScanned),
      ("root".toList,.string root), ("substitutions".toList,.number r.substitutions)]

end ParamTidy

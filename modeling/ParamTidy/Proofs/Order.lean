import ParamTidy.Path.Spelling
import ParamTidy.Proofs.Agreement
import ParamTidy.Proofs.Locating

/-!
# The order of a report

The paths of a report ascend name by name, a directory before what lies in it (`Location.Precedes`), so none comes twice, and
they are those that a walk comes to that goes down first and sorts the names of each directory (`walk_ascends`).
-/

namespace ParamTidy

namespace Root

variable {r : Root} {fs : FileSystem} {skip : SkipSet}

theorem Calls.path {rel : Location} {v : Visit} (calls : r.Calls fs skip rel v) : v.path = r.path rel := by
  cases calls <;> rfl

/-- The paths of the visits are those of their places. -/
theorem map_path_visits (directory : fs.layout.isDirectory r.base)
    (begun : r.prunes skip [] ∨ fs.listingError? (r.path []) = none) :
    (r.visits fs skip).map Visit.path = (r.itinerary fs skip).map fun e => r.path e.1 := by
  rw [← map_snd_itinerary, List.map_map]
  refine List.map_congr_left fun e listed => ?_
  exact ((mem_itinerary_iff directory begun).1 listed).2.path

end Root

/-- The paths of a report are absolute and clean, its own root or below it, and ascend name by name; so none comes twice. -/
structure Report.Ascends (report : Report) : Prop where
  clean : ∀ p ∈ report.root :: report.entries.map Entry.path,
    p.isAbsolute ∧ ∀ fs : FileSystem, (fs.locate p).map Location.path = .ok p
  inside : ∀ p ∈ report.entries.map Entry.path, report.root.locate [] <+: p.locate []
  ascending : (report.entries.map fun entry => entry.path.locate []).Pairwise Location.Precedes
  once : (report.entries.map Entry.path).Nodup

/-- A report whose paths are those of ascending places ascends. -/
theorem report_ascends {r : Root} {entries : List Entry} (places : List Location)
    (paths : entries.map Entry.path = places.map r.path) (ascending : places.Pairwise Location.Precedes) :
    Report.Ascends ⟨r.path [],entries⟩ := by
  have told {p : Path} (member : p ∈ entries.map Entry.path) : ∃ rel, p = r.path rel := by
    rw [paths] at member
    obtain ⟨rel,_,rfl⟩ := List.mem_map.1 member
    exact ⟨rel,rfl⟩
  have located : (entries.map fun entry => entry.path.locate []) = places.map (r.names ++ ·) := by
    have composed : (entries.map fun entry => entry.path.locate []) = (entries.map Entry.path).map (Path.locate []) := by simp
    rw [composed, paths, List.map_map]
    exact List.map_congr_left fun rel _ => Location.locate_path _ _
  constructor
  · intro p member
    obtain ⟨rel,rfl⟩ : ∃ rel, p = r.path rel := by
      rcases List.mem_cons.1 member with rfl | member
      · exact ⟨[],rfl⟩
      · exact told member
    exact ⟨Location.isAbsolute_path _,fun fs => by rw [Root.path, fs.locate_path, Except.map]⟩
  · intro p member
    obtain ⟨rel,rfl⟩ := told member
    simp [Root.path]
  · rw [located, List.pairwise_map]
    exact ascending.imp fun before => before.append_left _
  · rw [paths, List.nodup_iff_pairwise_ne, List.pairwise_map]
    exact ascending.imp fun before same => before.ne (Root.path_inj.1 same)

/-- The report of a walk that succeeds ascends, and in whatever order the names of each directory are listed, its paths are
those that a walk comes to that sorts these names and goes down first. -/
theorem walk_ascends {fs : FileSystem} {s : Settings} {report : Report} (ended : (fs.walk s).result = .ok report) :
    report.Ascends ∧ ∃ r, fs.findRoot s.root = .ok r ∧ report.root = r.path [] ∧
      ∀ listing, fs.layout.Lists listing → report.entries.map Entry.path =
        (r.descend fs s.skip listing (fs.layout.height + 1) []).map fun e => r.path e.1 := by
  obtain ⟨r,found,begun,_,rfl⟩ := FileSystem.walk_eq_of_ok ended
  obtain ⟨_,_,directory,_⟩ := FileSystem.findRoot_eq_ok_iff.1 found
  have paths : ((fs.performAll s.encodings s.mode (r.visits fs s.skip)).map Step.entry).map Entry.path =
      (r.itinerary fs s.skip).map fun e => r.path e.1 := by
    rw [FileSystem.performAll_paths, Root.map_path_visits directory begun]
  refine ⟨report_ascends ((r.itinerary fs s.skip).map Prod.fst) ?_ ?_,r,found,rfl,?_⟩
  · rw [paths, List.map_map]
    rfl
  · rw [List.pairwise_map]
    exact r.itinerary_precedes fs s.skip
  · intro listing lists
    rw [Root.descend_eq_itinerary directory begun lists]
    exact paths

namespace Sample

def dc : Name := ⟨[0x64, 0x2E, 0x63],by decide⟩

/-- A directory `d` with a file `a.c` in it, and beside it a file `d.c`. -/
def nestedDisk : FileSystem :=
  ⟨⟨.ofList [([d],Node.directory .full), ([d, a],.file .full), ([dc],.file .full)]⟩,.ofList [([dc],form)],.present []⟩

def nestedReport : Report where
  root := ⟨[slash]⟩
  entries := [.processed (Location.path [d, a]) (.unchanged .utf8), .processed (Location.path [dc]) (.simplified 1 .latin1)]

theorem nested_walk_result : (nestedDisk.walk settings).result = .ok nestedReport := by decide +kernel

/-- The names at the top in descending order. -/
def nestedListing (l : Location) : List Name := if l = [] then [dc, d] else if l = [d] then [a] else []

theorem nestedDisk_lists : nestedDisk.layout.Lists nestedListing where
  complete := by
    intro l n
    have there : (nestedDisk.layout.node? (l ++ [n])).isSome ↔ l ++ [n] ∈ [[d], [d, a], [dc]] := by
      have below : l ++ [n] ≠ [] := by simp
      rw [Layout.node?, if_neg below, ← Std.ExtTreeMap.mem_iff_isSome_getElem?]
      simp [nestedDisk]
    rw [there]
    constructor
    · intro listed
      unfold nestedListing at listed
      split at listed
      · next top => simpa [top, or_comm] using listed
      · split at listed
        · next inside => simpa [inside] using listed
        · cases listed
    · intro member
      have one_of : l ++ [n] ∈ [[] ++ [d], [d] ++ [a], [] ++ [dc]] := member
      simp only [List.mem_cons, List.not_mem_nil, or_false, List.append_singleton_inj] at one_of
      rcases one_of with ⟨rfl,rfl⟩ | ⟨rfl,rfl⟩ | ⟨rfl,rfl⟩ <;> decide
  distinct := by
    intro l
    unfold nestedListing
    split
    · decide
    · split <;> decide

end Sample

/-- What lies in `d` comes before `d.c`, although the dot comes before the slash, and although `d.c` is listed first. -/
theorem sample_walk_ascends : (Sample.nestedDisk.walk Sample.settings).result = .ok Sample.nestedReport ∧
    Sample.nestedReport.Ascends ∧
    ((Sample.top.descend Sample.nestedDisk Sample.settings.skip Sample.nestedListing
      (Sample.nestedDisk.layout.height + 1) []).map fun e => Sample.top.path e.1) =
        [Location.path [Sample.d, Sample.a], Location.path [Sample.dc]] := by
  obtain ⟨ascends,r,found,_,alike⟩ := walk_ascends Sample.nested_walk_result
  have here : Sample.nestedDisk.findRoot Sample.settings.root = .ok Sample.top :=
    FileSystem.findRoot_eq_ok_iff.2 (by decide +kernel)
  obtain rfl : Sample.top = r := Except.ok.inj (here.symm.trans found)
  exact ⟨Sample.nested_walk_result,ascends,(alike _ Sample.nestedDisk_lists).symm⟩

end ParamTidy

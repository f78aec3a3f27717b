import Mathlib.Data.List.Induction
import ParamTidy.Proofs.Reach
import ParamTidy.Proofs.Resolution

/-!
# What a walk meets

`Root.Meets` says on its own, directory by directory, how far a walk gets; `meets_iff` holds `Root.reaches` to it. What is met
may call for a visit (`Root.Calls`). `Root.itinerary` lists the visits of a walk together with the places they are made at:
exactly the places that are met and call for them (`mem_itinerary_iff`), and in ascending order, so that none comes twice
(`itinerary_pairwise`).
-/

namespace ParamTidy

theorem compare_append_left (l a b : Location) : compare (l ++ a) (l ++ b) = compare a b := by
  induction l with
  | nil => rfl
  | cons n l ih =>
    have step : compare (n :: l ++ a) (n :: l ++ b) = (compare n n).then (compare (l ++ a) (l ++ b)) :=
      List.compareLex_cons_cons
    have self : compare n n = .eq := Std.ReflCmp.compare_self
    rw [step, self, ih]
    rfl

theorem ne_of_compare_lt {a b : Location} (lt : compare a b = .lt) : a ≠ b := by
  rintro rfl
  have self : compare a a = .eq := Std.ReflCmp.compare_self
  rw [self] at lt
  cases lt

namespace Root

/-- What a walk meets, by its names below the root: the root, and all that lies in a directory that is met, can be listed and is
not left alone for its name. A directory below the root is no link, and the name of a root that is one does not count. -/
inductive Meets (r : Root) (fs : FileSystem) (skip : SkipSet) : Location → Prop
  | root : Meets r fs skip []
  | inside {rel : Location} {n : Name} (met : Meets r fs skip rel) (directory : fs.layout.isDirectory (r.place rel))
      (listable : fs.listingError? (r.path rel) = none)
      (kept : ¬ (rel = [] ∧ r.linked) → ¬ skip.skipsDir (r.lastName rel))
      (there : (fs.layout.node? (r.place (rel ++ [n]))).isSome) : Meets r fs skip (rel ++ [n])

section
variable (r : Root) (fs : FileSystem) (skip : SkipSet)

/-- A directory of this name is left alone; the name of a root that is a link does not count. -/
def LeavesAlone (rel : Location) : Prop := ¬ (rel = [] ∧ r.linked) ∧ skip.skipsDir (r.lastName rel)

/-- A file, or a link that leads to one, whose own name is that of a source file. -/
def IsSource (rel : Location) : Prop :=
  isSourceName (r.lastName rel) ∧
    (fs.layout.isFile (r.place rel) ∨ fs.layout.isLink (r.place rel) ∧ fs.leadsToFile (r.path rel))

/-- What a place calls for when it is met. -/
inductive Calls (rel : Location) : Visit → Prop
  | pruned (directory : fs.layout.isDirectory (r.place rel)) (left : r.LeavesAlone skip rel) :
      Calls rel (.pruned (r.path rel))
  | unlistable {e : SystemError} (directory : fs.layout.isDirectory (r.place rel)) (kept : ¬ r.LeavesAlone skip rel)
      (refused : fs.listingError? (r.path rel) = some e) : Calls rel (.unlistable (r.path rel) e)
  | excluded (source : r.IsSource fs rel) (skipped : skip.skipsFile (r.path rel)) : Calls rel (.excluded (r.path rel))
  | candidate (source : r.IsSource fs rel) (kept : ¬ skip.skipsFile (r.path rel)) :
      Calls rel (.candidate (r.path rel))

/-- The visits of a walk with the places they are made at. -/
def itinerary : List (Location × Visit) :=
  (if r.prunes skip [] then [([],.pruned (r.path []))] else [])
    ++ (r.below fs).filterMap fun e => (r.visit? fs skip e.1 e.2).map fun v => (e.1,v)

end

variable {r : Root} {fs : FileSystem} {skip : SkipSet}

theorem path_inj {a b : Location} : r.path a = r.path b ↔ a = b := by
  rw [path, path, Location.path_inj, List.append_cancel_left_eq]

theorem place_inj {a b : Location} : r.place a = r.place b ↔ a = b := by
  rw [place, place, List.append_cancel_left_eq]

/-! ## How far a walk gets -/

theorem prunes_iff {rel : Location} : r.prunes skip rel ↔ r.LeavesAlone skip rel := by
  by_cases top : rel = [] <;> by_cases linked : r.linked <;> simp [prunes, LeavesAlone, top, linked]

theorem enters_iff {rel : Location} :
    r.enters fs skip rel ↔ fs.layout.isDirectory (r.place rel) ∧ ¬ r.LeavesAlone skip rel ∧
      fs.listingError? (r.path rel) = none := by
  rw [← prunes_iff]
  simp only [enters, Bool.and_eq_true, Bool.not_eq_true', Bool.not_eq_true, Option.isNone_iff_eq_none, and_assoc]

/-- Something is met if the walk gets to it and it is there. -/
theorem meets_iff {rel : Location} :
    r.Meets fs skip rel ↔ r.reaches fs skip rel ∧ (rel = [] ∨ (fs.layout.node? (r.place rel)).isSome) := by
  constructor
  · intro meets
    induction meets with
    | root => exact ⟨by simp [reaches],.inl rfl⟩
    | inside met directory listable kept there ih =>
      refine ⟨?_,.inr there⟩
      rw [reaches_append_singleton, Bool.and_eq_true]
      exact ⟨ih.1,enters_iff.2 ⟨directory,fun left => kept left.1 left.2,listable⟩⟩
  · rintro ⟨reached,there⟩
    induction rel using List.reverseRecOn with
    | nil => exact .root
    | append_singleton rel n ih =>
      rw [reaches_append_singleton, Bool.and_eq_true, enters_iff] at reached
      obtain ⟨before,directory,kept,listable⟩ := reached
      have present : (fs.layout.node? (r.place rel)).isSome := by
        obtain ⟨access,node⟩ := Layout.isDirectory_iff.1 directory
        simp [node]
      have met := ih before (.inr present)
      exact .inside met directory listable (fun counts named => kept ⟨counts,named⟩) (there.resolve_left (by simp))

theorem way_of_reaches {rel : Location} (reached : r.reaches fs skip rel) :
    ∀ k < rel.length, fs.layout.isDirectory (r.place (rel.take k)) := by
  intro k inside
  exact (enters_iff.1 ((r.reaches_iff fs skip).1 reached k inside)).1

theorem resolve_eq_place_of_isDirectory {p : Path} (found : fs.findRoot p = .ok r) {rel l : Location}
    (reached : r.reaches fs skip rel) (directory : fs.layout.isDirectory (r.place rel))
    (leads : fs.resolve (r.path rel) = .ok l) : l = r.place rel :=
  resolve_eq_place found (way_of_reaches reached) (Layout.isSome_of_isDirectory directory)
    (Layout.not_isLink_of_isDirectory directory) leads

section
variable {rel : Location} (met : r.Meets fs skip rel)
include met

theorem Meets.enters : ∀ k < rel.length, r.enters fs skip (rel.take k) :=
  (r.reaches_iff fs skip).1 (meets_iff.1 met).1

theorem Meets.way : ∀ k < rel.length, fs.layout.isDirectory (r.place (rel.take k)) := way_of_reaches (meets_iff.1 met).1

theorem Meets.kept : ∀ k < rel.length, ¬ r.LeavesAlone skip (rel.take k) := by
  intro k inside
  exact (enters_iff.1 (met.enters k inside)).2.1

end

theorem Meets.enters_above {rel : Location} {n : Name} {more : Location} (met : r.Meets fs skip (rel ++ n :: more)) :
    r.enters fs skip rel := by
  have entered := met.enters rel.length (by simp)
  rwa [List.take_left] at entered

/-! ## What calls for a visit -/

theorem not_isSource_of_isDirectory {rel : Location} (directory : fs.layout.isDirectory (r.place rel)) :
    ¬ r.IsSource fs rel := by
  rintro ⟨_,kind⟩
  obtain ⟨access,node⟩ := Layout.isDirectory_iff.1 directory
  simp [Layout.isFile, Layout.isLink, node] at kind

theorem visitFile?_eq_some_iff {rel : Location} {v : Visit} :
    r.visitFile? skip rel = some v ↔ isSourceName (r.lastName rel) ∧
      (skip.skipsFile (r.path rel) ∧ v = .excluded (r.path rel) ∨
        ¬ skip.skipsFile (r.path rel) ∧ v = .candidate (r.path rel)) := by
  unfold visitFile?
  by_cases named : isSourceName (r.lastName rel)
  · by_cases skipped : skip.skipsFile (r.path rel)
    · simp [named, skipped, eq_comm]
    · simp [named, skipped, eq_comm]
  · simp [named]

theorem visitDirectory?_eq_some_iff {rel : Location} {v : Visit} :
    r.visitDirectory? fs skip rel = some v ↔ r.LeavesAlone skip rel ∧ v = .pruned (r.path rel) ∨
      ¬ r.LeavesAlone skip rel ∧ ∃ e, fs.listingError? (r.path rel) = some e ∧ v = .unlistable (r.path rel) e := by
  rw [← prunes_iff]
  unfold visitDirectory?
  by_cases left : r.prunes skip rel
  · simp [left, eq_comm]
  · rw [if_neg left, Option.map_eq_some_iff]
    simp [left, eq_comm]

theorem visitNode?_eq_some_iff {rel : Location} {n : Node} {v : Visit}
    (node : fs.layout.node? (r.place rel) = some n) : r.visitNode? fs skip rel n = some v ↔ r.Calls fs skip rel v := by
  have directory_iff : fs.layout.isDirectory (r.place rel) ↔ ∃ access, n = .directory access := by
    rw [Layout.isDirectory_iff, node]
    simp
  have source_iff : r.IsSource fs rel ↔ isSourceName (r.lastName rel) ∧
      ((∃ access, n = .file access) ∨ (∃ target, n = .link target) ∧ fs.leadsToFile (r.path rel)) := by
    rw [IsSource, Layout.isFile_iff, Layout.isLink_iff, node]
    simp
  -- A source is visited as a file, be it one or a link to one.
  have as_file (source : r.IsSource fs rel) : r.visitNode? fs skip rel n = r.visitFile? skip rel := by
    rcases (source_iff.1 source).2 with ⟨access,rfl⟩ | ⟨⟨target,rfl⟩,leads⟩
    · rfl
    · simp [visitNode?, leads]
  have calls_of_source (source : r.IsSource fs rel) (visited : r.visitNode? fs skip rel n = some v) :
      r.Calls fs skip rel v := by
    rw [as_file source] at visited
    rcases (visitFile?_eq_some_iff.1 visited).2 with ⟨skipped,rfl⟩ | ⟨kept,rfl⟩
    · exact .excluded source skipped
    · exact .candidate source kept
  constructor
  · intro visited
    cases n with
    | directory access =>
      have directory := directory_iff.2 ⟨access,rfl⟩
      rcases visitDirectory?_eq_some_iff.1 visited with ⟨left,rfl⟩ | ⟨kept,e,refused,rfl⟩
      · exact .pruned directory left
      · exact .unlistable directory kept refused
    | file access =>
      have named := (visitFile?_eq_some_iff.1 visited).1
      exact calls_of_source (source_iff.2 ⟨named,.inl ⟨access,rfl⟩⟩) visited
    | link target =>
      by_cases leads : fs.leadsToFile (r.path rel)
      · have named : isSourceName (r.lastName rel) := by
          simp only [visitNode?, leads, if_true] at visited
          exact (visitFile?_eq_some_iff.1 visited).1
        exact calls_of_source (source_iff.2 ⟨named,.inr ⟨⟨target,rfl⟩,leads⟩⟩) visited
      · simp [visitNode?, leads] at visited
  · intro calls
    cases calls with
    | pruned directory left =>
      obtain ⟨access,rfl⟩ := directory_iff.1 directory
      exact visitDirectory?_eq_some_iff.2 (.inl ⟨left,rfl⟩)
    | unlistable directory kept refused =>
      obtain ⟨access,rfl⟩ := directory_iff.1 directory
      exact visitDirectory?_eq_some_iff.2 (.inr ⟨kept,_,refused,rfl⟩)
    | excluded source skipped =>
      rw [as_file source]
      exact visitFile?_eq_some_iff.2 ⟨source.1,.inl ⟨skipped,rfl⟩⟩
    | candidate source kept =>
      rw [as_file source]
      exact visitFile?_eq_some_iff.2 ⟨source.1,.inr ⟨kept,rfl⟩⟩

/-! ## The visits and their places -/

theorem map_snd_itinerary (r : Root) (fs : FileSystem) (skip : SkipSet) :
    (r.itinerary fs skip).map Prod.snd = r.visits fs skip := by
  rw [visits, itinerary, List.map_append, List.map_filterMap]
  congr 1
  · by_cases left : r.prunes skip [] <;> simp [left]
  · congr 1
    funext e
    cases r.visit? fs skip e.1 e.2 <;> rfl

theorem mem_visits_iff {v : Visit} : v ∈ r.visits fs skip ↔ ∃ rel, (rel,v) ∈ r.itinerary fs skip := by
  rw [← map_snd_itinerary, List.mem_map]
  constructor
  · rintro ⟨⟨rel,w⟩,member,rfl⟩
    exact ⟨rel,member⟩
  · rintro ⟨rel,member⟩
    exact ⟨(rel,v),member,rfl⟩

/-- Below the root exactly what is met and calls for a visit is visited, and the root if it is left alone. -/
theorem mem_itinerary {rel : Location} {v : Visit} :
    (rel,v) ∈ r.itinerary fs skip ↔ rel = [] ∧ r.LeavesAlone skip [] ∧ v = .pruned (r.path []) ∨
      rel ≠ [] ∧ r.Meets fs skip rel ∧ r.Calls fs skip rel v := by
  rw [itinerary, List.mem_append, List.mem_filterMap]
  refine or_congr ?_ ?_
  · rw [← prunes_iff]
    by_cases left : r.prunes skip [] <;> simp [left]
  · constructor
    · rintro ⟨⟨rel',n⟩,listed,told⟩
      obtain ⟨w,visited,same⟩ := Option.map_eq_some_iff.1 told
      obtain ⟨rfl,rfl⟩ := Prod.mk.inj same
      obtain ⟨below,node⟩ := (r.mem_below fs).1 listed
      simp only [visit?] at visited
      split at visited
      · next reached =>
        exact ⟨below,meets_iff.2 ⟨reached,.inr (by simp [node])⟩,(visitNode?_eq_some_iff node).1 visited⟩
      · cases visited
    · rintro ⟨below,met,calls⟩
      obtain ⟨reached,there⟩ := meets_iff.1 met
      obtain ⟨n,node⟩ := Option.isSome_iff_exists.1 (there.resolve_left below)
      refine ⟨(rel,n),(r.mem_below fs).2 ⟨below,node⟩,?_⟩
      simp [visit?, reached, (visitNode?_eq_some_iff node).2 calls]

/-- On a walk that can begin exactly what is met and calls for a visit is visited, the root included. -/
theorem mem_itinerary_iff (directory : fs.layout.isDirectory r.base)
    (begun : r.prunes skip [] ∨ fs.listingError? (r.path []) = none) {rel : Location} {v : Visit} :
    (rel,v) ∈ r.itinerary fs skip ↔ r.Meets fs skip rel ∧ r.Calls fs skip rel v := by
  have top : fs.layout.isDirectory (r.place []) := by rwa [place, List.append_nil]
  rw [mem_itinerary]
  constructor
  · rintro (⟨rfl,left,rfl⟩ | ⟨_,met,calls⟩)
    · exact ⟨.root,.pruned top left⟩
    · exact ⟨met,calls⟩
  · rintro ⟨met,calls⟩
    by_cases here : rel = []
    · subst here
      left
      cases calls with
      | pruned _ left => exact ⟨rfl,left,rfl⟩
      | unlistable _ kept refused =>
        rcases begun with left | listed
        · exact absurd (prunes_iff.1 left) kept
        · rw [listed] at refused
          cases refused
      | excluded source _ => exact absurd source (not_isSource_of_isDirectory top)
      | candidate source _ => exact absurd source (not_isSource_of_isDirectory top)
    · exact .inr ⟨here,met,calls⟩

/-- A file, or a link that leads to one, is a candidate if it is met, by its own name a source, and not excluded. -/
theorem candidate_mem_visits_iff {p : Path} :
    .candidate p ∈ r.visits fs skip ↔ ∃ rel, rel ≠ [] ∧ r.Meets fs skip rel ∧ p = r.path rel ∧
      isSourceName (r.lastName rel) ∧ ¬ skip.skipsFile (r.path rel) ∧
      (fs.layout.isFile (r.place rel) ∨ fs.layout.isLink (r.place rel) ∧ fs.leadsToFile (r.path rel)) := by
  rw [mem_visits_iff]
  refine exists_congr fun rel => ?_
  rw [mem_itinerary]
  constructor
  · rintro (⟨_,_,other⟩ | ⟨below,met,calls⟩)
    · cases other
    · cases calls with
      | candidate source kept => exact ⟨below,met,rfl,source.1,kept,source.2⟩
  · rintro ⟨below,met,rfl,named,kept,kind⟩
    exact .inr ⟨below,met,.candidate ⟨named,kind⟩ kept⟩

theorem itinerary_pairwise (r : Root) (fs : FileSystem) (skip : SkipSet) :
    (r.itinerary fs skip).Pairwise fun a b => compare a.1 b.1 = .lt := by
  rw [itinerary, List.pairwise_append]
  refine ⟨?_,?_,?_⟩
  · by_cases left : r.prunes skip [] <;> simp [left]
  · refine (r.pairwise_below fs).filterMap _ ?_
    rintro ⟨a,n⟩ ⟨b,m⟩ lt x visited y visited'
    obtain ⟨v,_,rfl⟩ := Option.map_eq_some_iff.1 visited
    obtain ⟨w,_,rfl⟩ := Option.map_eq_some_iff.1 visited'
    rwa [place, place, compare_append_left] at lt
  · intro top member x listed
    have empty : top.1 = [] := by
      by_cases left : r.prunes skip [] <;> simp [left] at member
      rw [member]
    obtain ⟨⟨b,m⟩,there,visited⟩ := List.mem_filterMap.1 listed
    obtain ⟨w,_,rfl⟩ := Option.map_eq_some_iff.1 visited
    rw [empty]
    cases b with
    | nil => exact absurd rfl ((r.mem_below fs).1 there).1
    | cons => rfl

theorem itinerary_nodup (r : Root) (fs : FileSystem) (skip : SkipSet) :
    ((r.itinerary fs skip).map Prod.fst).Nodup :=
  List.pairwise_map.2 ((r.itinerary_pairwise fs skip).imp ne_of_compare_lt)

end Root

end ParamTidy

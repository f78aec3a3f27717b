import Mathlib.Data.List.Forall2
import Mathlib.Data.List.Sort
import ParamTidy.Proofs.ReportCoverage
import ParamTidy.Proofs.Lookup

/-!
# Walks on two disks

Two file systems may agree in a region and differ in the rest (`AgreeOn`). Where the way of each path is the same on both, a
walk makes the same visits (`SeesAlike.visits`), and its steps lead from agreement to agreement: `perform_agree` is one visit,
`performAll_agree` the run. What is told of a file in the region is told on both.
-/

namespace ParamTidy

def Visit.path : Visit → Path
  | .pruned p | .unlistable p _ | .excluded p | .candidate p => p

/-- In a region two file systems have the same nodes, and their files the same bytes. -/
structure AgreeOn (seen : Location → Prop) (a b : FileSystem) : Prop where
  cwd : b.cwd = a.cwd
  node : ∀ l, seen l → b.layout.node? l = a.layout.node? l
  content : ∀ l, seen l → a.layout.isFile l → b.content l = a.content l

/-- Two steps tell of one path, and unless that leads to a file outside the region they tell and log the same. -/
structure Step.Agree (seen : Location → Prop) (fs : FileSystem) (x y : Step) : Prop where
  path : y.entry.path = x.entry.path
  told : (∀ l, fs.resolve x.entry.path = .ok l → fs.layout.isFile l → seen l) → y.entry = x.entry ∧ y.log = x.log

/-- To a walk two disks look alike: the places it gets to, which directories there can be listed, and which links lead to files.
-/
structure Root.SeesAlike (r : Root) (skip : SkipSet) (a b : FileSystem) : Prop where
  bare : ∀ rel, r.reaches a skip rel → b.layout.bare? (r.place rel) = a.layout.bare? (r.place rel)
  listing : ∀ rel, r.reaches a skip rel → a.layout.isDirectory (r.place rel) → ¬ r.LeavesAlone skip rel →
    b.listingError? (r.path rel) = a.listingError? (r.path rel)
  leads : ∀ rel, r.reaches a skip rel → a.layout.isLink (r.place rel) →
    b.leadsToFile (r.path rel) = a.leadsToFile (r.path rel)

namespace FileSystem

/-! ## One file -/

section
variable {seen : Location → Prop} {a b : FileSystem} (agree : AgreeOn seen a b)
include agree

theorem agreeOn_setContent (l : Location) (bytes : Bytes) : AgreeOn seen (a.setContent l bytes) (b.setContent l bytes) where
  cwd := agree.cwd
  node := agree.node
  content := by
    intro x inside file
    rw [setContent_content, setContent_content, agree.content x inside file]

theorem agreeOn_outside {a' b' : FileSystem} (same : SameLayout a a') (same' : SameLayout b b')
    (kept : ∀ l, seen l → a'.content l = a.content l) (kept' : ∀ l, seen l → b'.content l = b.content l) :
    AgreeOn seen a' b' where
  cwd := by rw [same.cwd, same'.cwd, agree.cwd]
  node := by
    intro l inside
    rw [same.layout, same'.layout, agree.node l inside]
  content := by
    intro l inside file
    rw [same.layout] at file
    rw [kept l inside, kept' l inside, agree.content l inside file]

variable {p : Path} (leads : b.resolve p = a.resolve p) (inside : ∀ l, a.resolve p = .ok l → seen l)
include leads inside

theorem openFile_agree (permits : Access → Bool) (ofDirectory : Access → SystemError) :
    b.openFile p permits ofDirectory = a.openFile p permits ofDirectory := by
  unfold openFile
  rw [leads]
  cases found : a.resolve p with
  | error e => rfl
  | ok l => simp only [bind, Except.bind, agree.node l (inside l found)]

theorem read_agree : b.read p = a.read p := by
  unfold read
  rw [openFile_agree agree leads inside]
  cases opened : a.openFile p Access.read _ with
  | error e => rfl
  | ok l =>
    obtain ⟨access,found,node,_⟩ := openFile_eq_ok_iff.1 opened
    simp only [Except.map, agree.content l (inside l found) (Layout.isFile_iff.2 ⟨access,node⟩)]

theorem write_agree (bytes : Bytes) :
    (∃ e, a.write p bytes = .error e ∧ b.write p bytes = .error e) ∨
      ∃ l, a.write p bytes = .ok (a.setContent l bytes) ∧ b.write p bytes = .ok (b.setContent l bytes) := by
  unfold write
  rw [openFile_agree agree leads inside]
  cases a.openFile p Access.write _ with
  | error e => exact .inl ⟨e,rfl,rfl⟩
  | ok l => exact .inr ⟨l,rfl,rfl⟩

/-- The same comes of a file in the region on both disks. -/
theorem simplifyFile_agree_inside (chain : List Encoding) (mode : Mode) :
    (b.simplifyFile p chain mode).result = (a.simplifyFile p chain mode).result ∧
      (b.simplifyFile p chain mode).log = (a.simplifyFile p chain mode).log ∧
      AgreeOn seen (a.simplifyFile p chain mode).after (b.simplifyFile p chain mode).after := by
  have same := read_agree agree leads inside
  have treated := a.simplifyFile_treated p chain mode
  generalize a.simplifyFile p chain mode = attempt at treated
  cases treated with
  | unreadable read =>
    have again : Treated b p chain mode _ := .unreadable (same.trans read)
    rw [treated_iff.1 again]
    exact ⟨rfl,rfl,agree⟩
  | undecodable read decoded =>
    have again : Treated b p chain mode _ := .undecodable (same.trans read) decoded
    rw [treated_iff.1 again]
    exact ⟨rfl,rfl,agree⟩
  | unchanged read decoded free =>
    have again : Treated b p chain mode _ := .unchanged (same.trans read) decoded free
    rw [treated_iff.1 again]
    exact ⟨rfl,rfl,agree⟩
  | foreseen read decoded holds dry =>
    have again : Treated b p chain mode _ := .foreseen (same.trans read) decoded holds dry
    rw [treated_iff.1 again]
    exact ⟨rfl,rfl,agree⟩
  | @unwritable bytes reading error read decoded holds writing write =>
    rcases write_agree agree leads inside (Utf8.encode (simplify reading.text).text) with ⟨e,refused,refused'⟩ | ⟨l,done,_⟩
    · obtain rfl : error = e := Except.error.inj (write.symm.trans refused)
      have again : Treated b p chain mode _ := .unwritable (same.trans read) decoded holds writing refused'
      rw [treated_iff.1 again]
      exact ⟨rfl,rfl,agree⟩
    · rw [write] at done
      cases done
  | @simplified bytes reading after read decoded holds writing write =>
    rcases write_agree agree leads inside (Utf8.encode (simplify reading.text).text) with ⟨e,refused,_⟩ | ⟨l,done,done'⟩
    · rw [write] at refused
      cases refused
    · obtain rfl : after = a.setContent l _ := Except.ok.inj (write.symm.trans done)
      have again : Treated b p chain mode _ := .simplified (same.trans read) decoded holds writing done'
      rw [treated_iff.1 again]
      exact ⟨rfl,rfl,agreeOn_setContent agree l _⟩

end

/-- Whatever comes of a file, the region stays alike. -/
theorem simplifyFile_agree {seen : Location → Prop} {a b : FileSystem} (agree : AgreeOn seen a b) {p : Path}
    (leads : b.resolve p = a.resolve p) (chain : List Encoding) (mode : Mode) :
    AgreeOn seen (a.simplifyFile p chain mode).after (b.simplifyFile p chain mode).after := by
  by_cases inside : ∀ l, a.resolve p = .ok l → seen l
  · exact (simplifyFile_agree_inside agree leads inside chain mode).2.2
  · simp only [not_forall] at inside
    obtain ⟨l,found,outside⟩ := inside
    have apart : ∀ x, seen x → a.resolve p ≠ .ok x := by
      intro x there found'
      rw [found] at found'
      cases found'
      exact outside there
    refine agreeOn_outside agree (a.simplifyFile_tidies p chain mode).toSameLayout
      (b.simplifyFile_tidies p chain mode).toSameLayout ?_ ?_
    · intro x there
      exact simplifyFile_content (apart x there)
    · intro x there
      exact simplifyFile_content (leads ▸ apart x there)

/-! ## Visits and runs -/

theorem perform_entry_path (fs : FileSystem) (chain : List Encoding) (mode : Mode) (v : Visit) :
    (fs.perform chain mode v).entry.path = v.path := by
  cases v with
  | candidate p =>
    rw [perform, Step.ofAttempt]
    cases done : (fs.simplifyFile p chain mode).result with
    | ok o => rfl
    | error f => rcases simplifyFile_error done with ⟨c,rfl⟩ | rfl <;> rfl
  | _ => rfl

theorem performAll_paths (fs : FileSystem) (chain : List Encoding) (mode : Mode) (visits : List Visit) :
    ((fs.performAll chain mode visits).map Step.entry).map Entry.path = visits.map Visit.path := by
  induction visits generalizing fs with
  | nil => rfl
  | cons v visits ih => rw [performAll, List.map_cons, List.map_cons, List.map_cons, perform_entry_path, ih]

theorem perform_agree {seen : Location → Prop} {a b : FileSystem} (agree : AgreeOn seen a b) {v : Visit}
    (leads : ∀ p, v = .candidate p → b.resolve p = a.resolve p)
    (files : ∀ p l, v = .candidate p → a.resolve p = .ok l → a.layout.isFile l) (chain : List Encoding) (mode : Mode) :
    Step.Agree seen a (a.perform chain mode v) (b.perform chain mode v) ∧
      AgreeOn seen (a.perform chain mode v).after (b.perform chain mode v).after := by
  have path : (b.perform chain mode v).entry.path = (a.perform chain mode v).entry.path := by
    rw [perform_entry_path, perform_entry_path]
  cases v with
  | pruned p => exact ⟨⟨path,fun _ => ⟨rfl,rfl⟩⟩,agree⟩
  | unlistable p e => exact ⟨⟨path,fun _ => ⟨rfl,rfl⟩⟩,agree⟩
  | excluded p => exact ⟨⟨path,fun _ => ⟨rfl,rfl⟩⟩,agree⟩
  | candidate p =>
    have same := leads p rfl
    refine ⟨⟨path,?_⟩,?_⟩
    · intro inside
      rw [perform_entry_path] at inside
      have within (l : Location) (found : a.resolve p = .ok l) : seen l := inside l found (files p l rfl found)
      obtain ⟨result,log,_⟩ := simplifyFile_agree_inside agree same within chain mode
      simp only [perform, Step.ofAttempt, result]
      cases (a.simplifyFile p chain mode).result with
      | ok o => exact ⟨rfl,log⟩
      | error f => exact ⟨rfl,by simp only [Step.ofFailure, log]⟩
    · rw [perform_candidate_after, perform_candidate_after]
      exact simplifyFile_agree agree same chain mode

theorem performAll_agree {seen : Location → Prop} {a b : FileSystem} (agree : AgreeOn seen a b) {visits : List Visit}
    (leads : ∀ p, .candidate p ∈ visits → b.resolve p = a.resolve p)
    (files : ∀ p l, .candidate p ∈ visits → a.resolve p = .ok l → a.layout.isFile l)
    (chain : List Encoding) (mode : Mode) :
    List.Forall₂ (Step.Agree seen a) (a.performAll chain mode visits) (b.performAll chain mode visits) ∧
      AgreeOn seen (a.afterSteps (a.performAll chain mode visits)) (b.afterSteps (b.performAll chain mode visits)) := by
  induction visits generalizing a b with
  | nil => exact ⟨.nil,agree⟩
  | cons v visits ih =>
    have kept := (a.perform_tidies chain mode v).toSameLayout
    have kept' := (b.perform_tidies chain mode v).toSameLayout
    have leads_here (p : Path) (candidate : v = .candidate p) := leads p (by simp [candidate])
    have files_here (p : Path) (l : Location) (candidate : v = .candidate p) := files p l (by simp [candidate])
    obtain ⟨first,next⟩ := perform_agree agree leads_here files_here chain mode
    have leads_later (p : Path) (member : .candidate p ∈ visits) :
        (b.perform chain mode v).after.resolve p = (a.perform chain mode v).after.resolve p := by
      rw [kept.resolve, kept'.resolve, leads p (List.mem_cons_of_mem _ member)]
    have files_later (p : Path) (l : Location) (member : .candidate p ∈ visits)
        (found : (a.perform chain mode v).after.resolve p = .ok l) :
        (a.perform chain mode v).after.layout.isFile l := by
      rw [kept.resolve] at found
      rw [kept.layout]
      exact files p l (List.mem_cons_of_mem _ member) found
    obtain ⟨rest,final⟩ := ih next leads_later files_later
    simp only [performAll, afterSteps_cons]
    refine ⟨.cons first (rest.imp fun x y step => ⟨step.path,?_⟩),final⟩
    intro inside
    refine step.told fun l found file => ?_
    rw [kept.resolve] at found
    rw [kept.layout] at file
    exact inside l found file

/-- If none of the paths leads to a file outside the region, all that is told and logged is the same. -/
theorem told_alike {seen : Location → Prop} {fs : FileSystem} {steps steps' : List Step}
    (agree : List.Forall₂ (Step.Agree seen fs) steps steps')
    (inside : ∀ p ∈ (steps.map Step.entry).map Entry.path, ∀ l, fs.resolve p = .ok l → fs.layout.isFile l → seen l) :
    steps'.map Step.entry = steps.map Step.entry ∧ steps'.flatMap Step.log = steps.flatMap Step.log := by
  induction agree with
  | nil => exact ⟨rfl,rfl⟩
  | cons first _ ih =>
    obtain ⟨entry,log⟩ := first.told (inside _ (by simp))
    obtain ⟨entries,logs⟩ := ih fun p member => inside p (List.mem_cons_of_mem _ member)
    simp only [List.map_cons, List.flatMap_cons, entry, entries, log, logs, and_self]

/-! ## Where paths lead on both -/

section
variable {good : Location → Prop} {a b : FileSystem} (alike : Layout.Alike good a.layout b.layout) {p : Path}
  (absolute : p.isAbsolute)
  (way : Layout.GoesAlike good a.layout b.layout linkLimit [] p.moves)
include alike absolute way

theorem find_congr (ending : Ending) :
    b.find ending p = a.find ending p ∧ ∀ l, a.find ending p = .ok l → good l := by
  obtain ⟨same,lands⟩ := Layout.arrive_congr alike ending alike.top way
  have arrives : b.arrive ending true p.moves = a.arrive ending true p.moves := same
  have ends : b.destination ending p = a.destination ending p := by
    unfold destination
    rw [absolute, arrives]
  refine ⟨by rw [find, find, ends],?_⟩
  intro l found
  obtain ⟨d,arrived,stands⟩ := bind_eq_ok_iff.1 found
  cases d with
  | found l' =>
    cases stands
    unfold destination at arrived
    split at arrived
    · cases arrived
    split at arrived
    · cases arrived
    split at arrived
    · cases arrived
    rw [absolute] at arrived
    exact lands _ arrived
  | vacant directory n => cases stands
  | removed above gone => cases stands

theorem leadsToFile_congr : b.leadsToFile p = a.leadsToFile p := by
  obtain ⟨same,lands⟩ := find_congr alike absolute way .follow
  unfold leadsToFile resolve
  rw [same]
  cases found : a.find .follow p with
  | error e => rfl
  | ok l => exact Layout.isFile_congr (alike.bare l (lands l found))

theorem namesLink_congr : b.namesLink p = a.namesLink p := by
  obtain ⟨same,lands⟩ := find_congr alike absolute way .keep
  unfold namesLink
  rw [same]
  cases found : a.find .keep p with
  | error e => rfl
  | ok l => exact Layout.isLink_congr (alike.bare l (lands l found))

end

theorem findRoot_congr {good : Location → Prop} {a b : FileSystem} (alike : Layout.Alike good a.layout b.layout)
    (cwd : b.cwd = a.cwd) {p : Path}
    (way : ∀ names, a.locate p = .ok names → Layout.GoesAlike good a.layout b.layout linkLimit [] names.path.moves) :
    b.findRoot p = a.findRoot p := by
  have located : b.locate p = a.locate p := by rw [locate, locate, cwd]
  unfold findRoot
  rw [located]
  cases found : a.locate p with
  | error e => rfl
  | ok names =>
    obtain ⟨same,lands⟩ := find_congr alike names.isAbsolute_path (way names found) .follow
    have linked := namesLink_congr alike names.isAbsolute_path (way names found)
    simp only [resolve, same, linked]
    cases leads : a.find .follow names.path with
    | error e => rfl
    | ok base => simp only [Layout.isDirectory_congr (alike.bare base (lands base leads))]

end FileSystem

/-! ## What a walk sees of both -/

namespace Root.SeesAlike

variable {r : Root} {skip : SkipSet} {a b : FileSystem} (sees : r.SeesAlike skip a b)
include sees

theorem enters {rel : Location} (reached : r.reaches a skip rel) : r.enters b skip rel = r.enters a skip rel := by
  rw [Bool.eq_iff_iff, enters_iff, enters_iff, Layout.isDirectory_congr (sees.bare rel reached)]
  refine and_congr_right fun directory => and_congr_right fun kept => ?_
  rw [sees.listing rel reached directory kept]

theorem reaches (rel : Location) : r.reaches b skip rel = r.reaches a skip rel := by
  induction rel using List.reverseRecOn with
  | nil => simp [Root.reaches]
  | append_singleton rel n ih =>
    rw [reaches_append_singleton, reaches_append_singleton, ih]
    cases reached : r.reaches a skip rel with
    | false => rfl
    | true => rw [sees.enters reached]

theorem meets {rel : Location} : r.Meets b skip rel ↔ r.Meets a skip rel := by
  rw [meets_iff, meets_iff, sees.reaches]
  refine and_congr_right fun reached => ?_
  rw [Layout.isSome_congr (sees.bare rel reached)]

theorem calls {rel : Location} (met : r.Meets a skip rel) {v : Visit} :
    r.Calls b skip rel v ↔ r.Calls a skip rel v := by
  have reached := (meets_iff.1 met).1
  have directories := Layout.isDirectory_congr (sees.bare rel reached)
  have sources : r.IsSource b rel ↔ r.IsSource a rel := by
    rw [IsSource, IsSource, Layout.isFile_congr (sees.bare rel reached), Layout.isLink_congr (sees.bare rel reached)]
    refine and_congr_right fun _ => or_congr_right (and_congr_right fun link => ?_)
    rw [sees.leads rel reached link]
  constructor
  · intro calls
    cases calls with
    | pruned directory left => exact .pruned (directories ▸ directory) left
    | unlistable directory kept refused =>
      rw [directories] at directory
      exact .unlistable directory kept (sees.listing rel reached directory kept ▸ refused)
    | excluded source skipped => exact .excluded (sources.1 source) skipped
    | candidate source kept => exact .candidate (sources.1 source) kept
  · intro calls
    cases calls with
    | pruned directory left => exact .pruned (directories ▸ directory) left
    | unlistable directory kept refused =>
      refine .unlistable (directories ▸ directory) kept ?_
      rw [sees.listing rel reached directory kept, refused]
    | excluded source skipped => exact .excluded (sources.2 source) skipped
    | candidate source kept => exact .candidate (sources.2 source) kept

theorem visits : r.visits b skip = r.visits a skip := by
  have same : r.itinerary b skip = r.itinerary a skip := by
    have irrefl : Std.Irrefl fun x y : Location × Visit => compare x.1 y.1 = .lt :=
      ⟨fun x lt => ne_of_compare_lt lt rfl⟩
    have antisymm : Std.Antisymm fun x y : Location × Visit => compare x.1 y.1 = .lt :=
      ⟨fun x y lt gt => by
        rw [Std.OrientedCmp.gt_of_lt lt] at gt
        cases gt⟩
    refine (r.itinerary_pairwise b skip).eq_of_mem_iff (r.itinerary_pairwise a skip) fun ⟨rel,v⟩ => ?_
    rw [mem_itinerary, mem_itinerary, sees.meets]
    refine or_congr_right (and_congr_right fun _ => and_congr_right fun met => ?_)
    rw [sees.calls met]
  rw [← map_snd_itinerary, ← map_snd_itinerary, same]

end Root.SeesAlike

/-! ## Walks on both -/

theorem Root.exists_of_mem_visits {r : Root} {fs : FileSystem} {skip : SkipSet} {v : Visit}
    (member : v ∈ r.visits fs skip) : ∃ rel, r.reaches fs skip rel ∧ v.path = r.path rel := by
  obtain ⟨rel,listed⟩ := mem_visits_iff.1 member
  rcases mem_itinerary.1 listed with ⟨rfl,_,rfl⟩ | ⟨_,met,calls⟩
  · exact ⟨[],by simp [reaches],rfl⟩
  · exact ⟨rel,(meets_iff.1 met).1,by cases calls <;> rfl⟩

theorem Root.isFile_of_candidate {fs : FileSystem} {skip : SkipSet} {root p : Path} {r : Root} {l : Location}
    (found : fs.findRoot root = .ok r) (member : .candidate p ∈ r.visits fs skip) (leads : fs.resolve p = .ok l) :
    fs.layout.isFile l := by
  obtain ⟨rel,_,met,rfl,_,_,kind⟩ := candidate_mem_visits_iff.1 member
  rcases kind with file | ⟨_,leadsToFile⟩
  · obtain rfl := resolve_eq_place found met.way (Layout.isSome_of_isFile file) (Layout.not_isLink_of_isFile file) leads
    exact file
  · simpa [FileSystem.leadsToFile, leads] using leadsToFile

/-- Where the root is found alike and the walk sees alike below it, both walks fail alike or make the same visits. -/
theorem walk_alike {a b : FileSystem} {s : Settings} (found : b.findRoot s.root = a.findRoot s.root)
    (sees : ∀ r, a.findRoot s.root = .ok r → r.SeesAlike s.skip a b) :
    (∃ f, a.walk s = .ofFailure a f ∧ b.walk s = .ofFailure b f) ∨
      ∃ r, a.findRoot s.root = .ok r ∧ (r.prunes s.skip [] ∨ a.listingError? (r.path []) = none) ∧
        a.walk s = .ofSteps a (r.path []) (a.performAll s.encodings s.mode (r.visits a s.skip)) ∧
        b.walk s = .ofSteps b (r.path []) (b.performAll s.encodings s.mode (r.visits a s.skip)) := by
  cases root : a.findRoot s.root with
  | error f => exact .inl ⟨f,by simp only [FileSystem.walk, root],by simp only [FileSystem.walk, found, root]⟩
  | ok r =>
    have alike := sees r root
    have root' : b.findRoot s.root = .ok r := found.trans root
    obtain ⟨_,_,directory,_⟩ := FileSystem.findRoot_eq_ok_iff.1 root
    have listing (kept : ¬ r.prunes s.skip []) : b.listingError? (r.path []) = a.listingError? (r.path []) :=
      alike.listing [] (by simp [Root.reaches]) (by rwa [Root.place, List.append_nil]) fun left => kept (Root.prunes_iff.2 left)
    by_cases begun : r.prunes s.skip [] ∨ a.listingError? (r.path []) = none
    · have begun' : r.prunes s.skip [] ∨ b.listingError? (r.path []) = none := by
        by_cases kept : r.prunes s.skip []
        · exact .inl kept
        · exact .inr ((listing kept).trans (begun.resolve_left kept))
      have walked := FileSystem.walk_eq_of_findRoot root' begun'
      rw [alike.visits] at walked
      exact .inr ⟨r,rfl,begun,FileSystem.walk_eq_of_findRoot root begun,walked⟩
    · obtain ⟨kept,refused⟩ := not_or.1 begun
      obtain ⟨e,refused⟩ := Option.ne_none_iff_exists'.1 refused
      exact .inl ⟨_,FileSystem.walk_eq_of_refused root kept refused,
        FileSystem.walk_eq_of_refused root' kept ((listing kept).trans refused)⟩

end ParamTidy

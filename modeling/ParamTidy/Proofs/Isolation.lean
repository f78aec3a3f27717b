import ParamTidy.Proofs.Agreement

/-!
# One file affects no other

Two disks may differ in one file: in its bytes and in what may be done with it (`DifferAt`). A walk makes the same visits on
both, tells the same of all other files and leaves the same in them, whatever comes of that one file on either disk and however
many links lead to it (`walk_isolated`).
-/

namespace ParamTidy

/-- Two disks differ in one file at most. -/
structure DifferAt (f : Location) (a b : FileSystem) : Prop extends AgreeOn (· ≠ f) a b where
  file : a.layout.isFile f
  file' : b.layout.isFile f

/-- A file with other permissions and other bytes makes no other difference. -/
theorem differAt_of_isFile {fs : FileSystem} {f : Location} (file : fs.layout.isFile f) (access : Access)
    (bytes : Bytes) :
    DifferAt f fs ({ fs with layout := fs.layout.place f (.file access) }.setContent f bytes) := by
  have below : f ≠ [] := by
    rintro rfl
    simp [Layout.isFile, Layout.node?] at file
  constructor
  · constructor
    · rfl
    · intro l other
      rw [FileSystem.setContent_layout, Layout.node?_place below, if_neg other]
    · intro l other _
      rw [FileSystem.setContent_content, if_neg other]
      rfl
  · exact file
  · rw [FileSystem.setContent_layout, Layout.isFile_iff]
    exact ⟨access,by rw [Layout.node?_place below, if_pos rfl]⟩

section
variable {f : Location} {a b : FileSystem} (differ : DifferAt f a b)
include differ

theorem DifferAt.alike : Layout.Alike (fun _ => True) a.layout b.layout where
  top := trivial
  up := fun _ _ => trivial
  bare := by
    intro l _
    by_cases here : l = f
    · subst here
      rw [Layout.isFile_iff_bare?.1 differ.file, Layout.isFile_iff_bare?.1 differ.file']
    · rw [Layout.bare?, Layout.bare?, differ.node l here]

theorem DifferAt.goesAlike (links : Nat) (l : Location) (moves : List Move) :
    Layout.GoesAlike (fun _ => True) a.layout b.layout links l moves := by
  intro x s _ _
  refine ⟨?_,fun _ _ => trivial⟩
  by_cases here : x = f
  · subst here
    rw [Layout.not_isSearchable_of_isFile differ.file, Layout.not_isSearchable_of_isFile differ.file']
  · rw [Layout.isSearchable, Layout.isSearchable, differ.node x here]

theorem DifferAt.resolve {p : Path} (absolute : p.isAbsolute) : b.resolve p = a.resolve p :=
  (FileSystem.find_congr differ.alike absolute (differ.goesAlike linkLimit [] p.moves) .follow).1

theorem DifferAt.listingError? {p : Path} (absolute : p.isAbsolute) : b.listingError? p = a.listingError? p := by
  unfold FileSystem.listingError?
  rw [differ.resolve absolute]
  cases a.resolve p with
  | error e => rfl
  | ok l =>
    by_cases here : l = f
    · subst here
      obtain ⟨access,node⟩ := Layout.isFile_iff.1 differ.file
      obtain ⟨access',node'⟩ := Layout.isFile_iff.1 differ.file'
      simp only [node, node']
    · simp only [differ.node l here]

theorem DifferAt.seesAlike (r : Root) (skip : SkipSet) : r.SeesAlike skip a b where
  bare := fun rel _ => differ.alike.bare (r.place rel) trivial
  listing := fun rel _ _ _ => differ.listingError? (Location.isAbsolute_path (r.names ++ rel))
  leads := fun rel _ _ =>
    FileSystem.leadsToFile_congr differ.alike (Location.isAbsolute_path (r.names ++ rel)) (differ.goesAlike _ _ _)

end

/-- On two disks that differ in one file a walk fails alike, or succeeds with reports of the same paths in the same order.
Entries at paths that do not lead to that file are the same, and all other files hold the same afterwards. -/
theorem walk_isolated {f : Location} {a b : FileSystem} (differ : DifferAt f a b) (s : Settings) :
    ((∃ failure, (a.walk s).result = .error failure ∧ (b.walk s).result = .error failure) ∨
      ∃ report report', (a.walk s).result = .ok report ∧ (b.walk s).result = .ok report' ∧
        report'.root = report.root ∧ report'.entries.map Entry.path = report.entries.map Entry.path ∧
        List.Forall₂ (fun entry entry' => a.resolve entry.path ≠ .ok f → entry' = entry) report.entries report'.entries) ∧
      ∀ l, l ≠ f → a.layout.isFile l → (b.walk s).after.content l = (a.walk s).after.content l := by
  have found := FileSystem.findRoot_congr differ.alike differ.cwd
    (fun names _ => differ.goesAlike linkLimit [] names.path.moves) (p := s.root)
  rcases walk_alike found (fun r _ => differ.seesAlike r s.skip) with ⟨failure,failed,failed'⟩ | ⟨r,root,begun,walked,walked'⟩
  · rw [failed, failed']
    exact ⟨.inl ⟨failure,rfl,rfl⟩,differ.content⟩
  · have leads (p : Path) (member : .candidate p ∈ r.visits a s.skip) : b.resolve p = a.resolve p := by
      obtain ⟨rel,_,_,rfl,_⟩ := Root.candidate_mem_visits_iff.1 member
      exact differ.resolve (Location.isAbsolute_path (r.names ++ rel))
    have files (p : Path) (l : Location) (member : .candidate p ∈ r.visits a s.skip) (found : a.resolve p = .ok l) :=
      Root.isFile_of_candidate root member found
    obtain ⟨steps,final⟩ := FileSystem.performAll_agree differ.toAgreeOn leads files s.encodings s.mode
    have kept := a.performAll_tidies s.encodings s.mode (r.visits a s.skip)
    rw [walked, walked']
    refine ⟨.inr ⟨_,_,rfl,rfl,rfl,?_,?_⟩,?_⟩
    · rw [FileSystem.performAll_paths, FileSystem.performAll_paths]
    · rw [List.forall₂_map_left_iff, List.forall₂_map_right_iff]
      refine steps.imp fun x y agree elsewhere => (agree.told ?_).1
      rintro l found _ rfl
      exact elsewhere found
    · intro l other file
      exact final.content l other (kept.layout ▸ file)

namespace Sample

/-- The disk, but for the file that the link leads to: it begins otherwise and cannot be read. -/
def lockedDisk : FileSystem :=
  { disk with layout := disk.layout.place [b] (.file ⟨false,true,false⟩) }.setContent [b] (0x20 :: form)

theorem differAt_lockedDisk : DifferAt [b] disk lockedDisk := differAt_of_isFile (by decide +kernel) _ _

end Sample

/-- On the other disk the file and the link to it fail. What is told of all else is the same. -/
theorem sample_walk_isolated : DifferAt [Sample.b] Sample.disk Sample.lockedDisk ∧
    ∃ report', (Sample.lockedDisk.walk Sample.settings).result = .ok report' ∧
      report'.failures = 3 ∧ Sample.report.failures = 1 ∧
      List.Forall₂ (fun entry entry' => Sample.disk.resolve entry.path ≠ .ok [Sample.b] → entry' = entry)
        Sample.report.entries report'.entries := by
  obtain ⟨⟨failure,failed,_⟩ | ⟨report,report',ended,ended',_,_,entries⟩,_⟩ :=
    walk_isolated Sample.differAt_lockedDisk Sample.settings
  · rw [Sample.walk_result] at failed
    cases failed
  · obtain rfl : Sample.report = report := Except.ok.inj (Sample.walk_result.symm.trans ended)
    refine ⟨Sample.differAt_lockedDisk,report',ended',?_,rfl,entries⟩
    have told : ((Sample.lockedDisk.walk Sample.settings).result.map Report.failures) = .ok 3 := by decide +kernel
    rw [ended'] at told
    exact Except.ok.inj told

end ParamTidy

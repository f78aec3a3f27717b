import ParamTidy.Proofs.Agreement

/-!
# What a walk does not look into

Two disks may differ in all that lies below a directory and in what may be done with the directory itself (`DifferBelow`). If a
walk leaves the directory alone for its name, and neither its root nor a link elsewhere leads through what lies there
(`KeepsClear`), it ends alike on both, logs alike and leaves what lies there as it is (`walk_opaque`).
-/

namespace ParamTidy

/-- Two disks have a directory in common and differ at most in what lies below it and in what may be done with it. -/
structure DifferBelow (d : Location) (a b : FileSystem) : Prop extends AgreeOn (fun l => ¬ d <+: l) a b where
  directory : a.layout.isDirectory d
  directory' : b.layout.isDirectory d

/-- On the way of moves no name is looked up in a directory or below it. The directory may be passed, by `.` or `..`, if it may
be searched on both disks or on neither. -/
structure PassesBy (d : Location) (a b : FileSystem) (l : Location) (moves : List Move) : Prop where
  contents : ∀ x n, a.layout.LooksUp x (.name n) linkLimit l moves → ¬ d <+: x
  permission : ∀ s, a.layout.LooksUp d s linkLimit l moves → b.layout.isSearchable d = a.layout.isSearchable d

/-- Neither the root of a walk nor a link outside a directory leads through what lies in the directory. -/
structure KeepsClear (d : Location) (a b : FileSystem) (root : Path) : Prop where
  root : ∀ names, a.locate root = .ok names → PassesBy d a b [] names.path.moves
  links : ∀ l n target, ¬ d <+: l → a.layout.node? (l ++ [n]) = some (.link target) →
    PassesBy d a b l [.segment (.name n)]

/-- Outside a directory, or at it. -/
def NotBelow (d l : Location) : Prop := d <+: l → l = d

theorem notBelow_append_singleton {d l : Location} (outside : ¬ d <+: l) (n : Name) : NotBelow d (l ++ [n]) := by
  intro inside
  rcases List.prefix_concat_iff.1 inside with here | above
  · exact here.symm
  · exact absurd above outside

section
variable {d : Location} {a b : FileSystem} (differ : DifferBelow d a b)
include differ

theorem DifferBelow.alike : Layout.Alike (NotBelow d) a.layout b.layout where
  top := fun inside => (List.prefix_nil.1 inside).symm
  up := by
    intro l notBelow inside
    have here := notBelow (inside.trans (List.dropLast_prefix l))
    subst here
    exact (inside.eq_of_length_le (by simp)).symm
  bare := by
    intro l notBelow
    by_cases inside : d <+: l
    · rw [notBelow inside, Layout.isDirectory_iff_bare?.1 differ.directory, Layout.isDirectory_iff_bare?.1 differ.directory']
    · rw [Layout.bare?, Layout.bare?, differ.node l inside]

theorem DifferBelow.isSearchable {x : Location} (outside : ¬ d <+: x) :
    b.layout.isSearchable x = a.layout.isSearchable x := by
  rw [Layout.isSearchable, Layout.isSearchable, differ.node x outside]

theorem PassesBy.goesAlike {l : Location} {moves : List Move} (passes : PassesBy d a b l moves) :
    Layout.GoesAlike (NotBelow d) a.layout b.layout linkLimit l moves := by
  intro x s looks notBelow
  by_cases inside : d <+: x
  · obtain rfl := notBelow inside
    refine ⟨passes.permission s looks,?_⟩
    rintro n rfl
    exact absurd inside (passes.contents x n looks)
  · exact ⟨differ.isSearchable inside,fun n _ => notBelow_append_singleton inside n⟩

end

theorem Root.place_prefix_iff {r : Root} {rel rel' : Location} : r.place rel <+: r.place rel' ↔ rel <+: rel' :=
  List.prefix_append_right_inj r.base

/-- A walk gets to nothing below a directory that it leaves alone. -/
theorem Root.LeavesAlone.notBelow {r : Root} {fs : FileSystem} {skip : SkipSet} {rel rel' : Location}
    (left : r.LeavesAlone skip rel) (reached : r.reaches fs skip rel') : NotBelow rel rel' := by
  intro inside
  by_contra other
  have shorter : rel.length < rel'.length := by
    refine Nat.lt_of_le_of_ne inside.length_le fun same => other ?_
    exact (inside.eq_of_length same).symm
  have entered := (r.reaches_iff fs skip).1 reached rel.length shorter
  rw [← List.prefix_iff_eq_take.1 inside] at entered
  exact (enters_iff.1 entered).2.1 left

/-- All that is told of a directory that a walk leaves alone, and of what lies there, is that it is left alone. -/
theorem Root.LeavesAlone.entry {r : Root} {fs : FileSystem} {s : Settings} {rel more : Location} {entry : Entry}
    (left : r.LeavesAlone s.skip rel) (directory : fs.layout.isDirectory (r.place rel))
    (base : fs.layout.isDirectory r.base) (begun : r.prunes s.skip [] ∨ fs.listingError? (r.path []) = none)
    (member : entry ∈ (fs.performAll s.encodings s.mode (r.visits fs s.skip)).map Step.entry)
    (path : entry.path = r.path (rel ++ more)) : entry = .skippedDirectory (r.path rel) := by
  obtain ⟨rel',met,now,next,accounts⟩ := Root.exists_accounts base begun member
  obtain rfl : rel' = rel ++ more := Root.path_inj.1 (accounts.path.symm.trans path)
  rw [left.notBelow (Root.meets_iff.1 met).1 (List.prefix_append rel more)] at accounts
  have no_source : ¬ r.IsSource fs rel := by
    rintro ⟨_,kind⟩
    simp [Layout.not_isFile_of_isDirectory directory, Layout.not_isLink_of_isDirectory directory] at kind
  cases accounts with
  | pruned _ _ => rfl
  | unlistable _ kept _ => exact absurd left kept
  | excluded source _ => exact absurd source no_source
  | processed source _ _ => exact absurd source no_source
  | failed source _ _ => exact absurd source no_source

section
variable {a b : FileSystem} {root : Path} {skip : SkipSet} {r : Root} {rel : Location} (found : a.findRoot root = .ok r)
  (left : r.LeavesAlone skip rel) (differ : DifferBelow (r.place rel) a b) (clear : KeepsClear (r.place rel) a b root)
include found left differ clear

/-- The way to what a walk gets to passes the directory by, but for the way to the directory itself. -/
theorem KeepsClear.goesAlike {rel' : Location} (reached : r.reaches a skip rel') (other : rel' ≠ rel) :
    Layout.GoesAlike (NotBelow (r.place rel)) a.layout b.layout linkLimit [] (r.path rel').moves := by
  have outside : ¬ rel <+: rel' := fun inside => other (left.notBelow reached inside)
  obtain ⟨located,_⟩ := FileSystem.findRoot_eq_ok_iff.1 found
  intro x s looks notBelow
  rcases Root.looksUp_path found (Root.way_of_reaches reached) looks with
    looks | ⟨k,_,rfl⟩ | ⟨directory,n,target,there,link,looks⟩
  · exact (clear.root r.names located).goesAlike differ x s looks notBelow
  · have apart : ¬ r.place rel <+: r.place (rel'.take k) := by
      rw [Root.place_prefix_iff]
      exact fun inside => outside (inside.trans (List.take_prefix k rel'))
    exact ⟨differ.isSearchable apart,fun n _ => notBelow_append_singleton apart n⟩
  · have apart : ¬ r.place rel <+: directory := by
      intro inside
      have below : r.place rel <+: r.place rel' := there ▸ inside.trans (List.prefix_append directory [n])
      exact outside (Root.place_prefix_iff.1 below)
    rw [there] at link
    exact (clear.links directory n target apart link).goesAlike differ x s looks notBelow

theorem KeepsClear.resolve {rel' : Location} (reached : r.reaches a skip rel') (other : rel' ≠ rel) :
    b.resolve (r.path rel') = a.resolve (r.path rel') ∧
      ∀ l, a.resolve (r.path rel') = .ok l → NotBelow (r.place rel) l :=
  FileSystem.find_congr differ.alike (Location.isAbsolute_path (r.names ++ rel'))
    (clear.goesAlike found left differ reached other) .follow

theorem KeepsClear.seesAlike : r.SeesAlike skip a b where
  bare := by
    intro rel' reached
    refine differ.alike.bare (r.place rel') fun inside => ?_
    rw [left.notBelow reached (Root.place_prefix_iff.1 inside)]
  listing := by
    intro rel' reached directory kept
    have other : rel' ≠ rel := by
      rintro rfl
      exact kept left
    unfold FileSystem.listingError?
    rw [(clear.resolve found left differ reached other).1]
    cases leads : a.resolve (r.path rel') with
    | error e => rfl
    | ok l =>
      obtain rfl := Root.resolve_eq_place_of_isDirectory found reached directory leads
      have outside : ¬ r.place rel <+: r.place rel' := by
        rw [Root.place_prefix_iff]
        exact fun inside => other (left.notBelow reached inside)
      simp only [differ.node _ outside]
  leads := by
    intro rel' reached link
    have other : rel' ≠ rel := by
      rintro rfl
      rw [Layout.not_isLink_of_isDirectory differ.directory] at link
      cases link
    exact FileSystem.leadsToFile_congr differ.alike (Location.isAbsolute_path (r.names ++ rel'))
      (clear.goesAlike found left differ reached other)

/-- No path that a walk gets to leads to a file that lies in the directory. -/
theorem KeepsClear.outside {rel' l : Location} (reached : r.reaches a skip rel') (leads : a.resolve (r.path rel') = .ok l)
    (file : a.layout.isFile l) : ¬ r.place rel <+: l := by
  have no_file : l ≠ r.place rel := by
    rintro rfl
    rw [Layout.not_isFile_of_isDirectory differ.directory] at file
    cases file
  intro inside
  refine no_file ?_
  by_cases here : rel' = rel
  · subst here
    exact Root.resolve_eq_place_of_isDirectory found reached differ.directory leads
  · exact (clear.resolve found left differ reached here).2 l leads inside

/-- Candidates lead to the same place on both disks, and not into the directory. -/
theorem KeepsClear.candidate {p : Path} (member : .candidate p ∈ r.visits a skip) :
    b.resolve p = a.resolve p ∧ ∀ l, a.resolve p = .ok l → ¬ r.place rel <+: l := by
  obtain ⟨rel',_,met,path,_,_,kind⟩ := Root.candidate_mem_visits_iff.1 member
  have reached := (Root.meets_iff.1 met).1
  have other : rel' ≠ rel := by
    rintro rfl
    simp [Layout.not_isFile_of_isDirectory differ.directory, Layout.not_isLink_of_isDirectory differ.directory] at kind
  constructor
  · rw [path]
    exact (clear.resolve found left differ reached other).1
  · intro l leads
    have file := Root.isFile_of_candidate found member leads
    rw [path] at leads
    exact clear.outside found left differ reached leads file

end

/-- If a walk leaves a directory alone for its name, whatever lies below it and whatever may be done with it, then the walk ends
alike and logs alike on all disks that differ in no more than that. It changes nothing that lies in the directory, no more
difference comes about elsewhere, and nothing in the directory is told to have failed, nor is the directory. Neither the root
nor a link outside the directory may lead through what lies in it. -/
theorem walk_opaque {a b : FileSystem} {s : Settings} {r : Root} {rel : Location} (found : a.findRoot s.root = .ok r)
    (left : r.LeavesAlone s.skip rel) (differ : DifferBelow (r.place rel) a b)
    (clear : KeepsClear (r.place rel) a b s.root) :
    (b.walk s).result = (a.walk s).result ∧ (b.walk s).log = (a.walk s).log ∧
      (∀ l, r.place rel <+: l →
        (a.walk s).after.content l = a.content l ∧ (b.walk s).after.content l = b.content l) ∧
      (a.walk s).after.layout = a.layout ∧ (b.walk s).after.layout = b.layout ∧
      DifferBelow (r.place rel) (a.walk s).after (b.walk s).after ∧
      ∀ report, (a.walk s).result = .ok report → ∀ entry ∈ report.entries, ∀ more,
        entry.path = r.path (rel ++ more) → entry = .skippedDirectory (r.path rel) := by
  have alike := differ.alike
  have found' : b.findRoot s.root = a.findRoot s.root :=
    FileSystem.findRoot_congr alike differ.cwd fun names located => (clear.root names located).goesAlike differ
  have sees (r' : Root) (found' : a.findRoot s.root = .ok r') : r'.SeesAlike s.skip a b := by
    obtain rfl : r = r' := Except.ok.inj (found.symm.trans found')
    exact clear.seesAlike found left differ
  rcases walk_alike found' sees with ⟨failure,failed,failed'⟩ | ⟨r',found',begun,walked,walked'⟩
  · rw [failed, failed']
    refine ⟨rfl,rfl,fun _ _ => ⟨rfl,rfl⟩,rfl,rfl,differ,?_⟩
    intro report ended
    cases ended
  · obtain rfl : r = r' := Except.ok.inj (found.symm.trans found')
    obtain ⟨_,_,base,_⟩ := FileSystem.findRoot_eq_ok_iff.1 found
    have leads (p : Path) (member : .candidate p ∈ r.visits a s.skip) := clear.candidate found left differ member
    have files (p : Path) (l : Location) (member : .candidate p ∈ r.visits a s.skip) (ends : a.resolve p = .ok l) :=
      Root.isFile_of_candidate found member ends
    have outside (p : Path) (member : p ∈ (r.visits a s.skip).map Visit.path) (l : Location) (ends : a.resolve p = .ok l)
        (file : a.layout.isFile l) : ¬ r.place rel <+: l := by
      obtain ⟨v,visited,rfl⟩ := List.mem_map.1 member
      obtain ⟨rel',reached,path⟩ := Root.exists_of_mem_visits visited
      exact clear.outside found left differ reached (path ▸ ends) file
    obtain ⟨steps,final⟩ := FileSystem.performAll_agree differ.toAgreeOn (fun p member => (leads p member).1) files
      s.encodings s.mode
    obtain ⟨entries,logs⟩ := FileSystem.told_alike steps (by rwa [FileSystem.performAll_paths])
    have kept := a.performAll_tidies s.encodings s.mode (r.visits a s.skip)
    have kept' := b.performAll_tidies s.encodings s.mode (r.visits a s.skip)
    rw [walked, walked']
    refine ⟨?_,?_,?_,kept.layout,kept'.layout,⟨final,?_,?_⟩,?_⟩
    · simp only [Walk.ofSteps, entries]
    · simp only [Walk.ofSteps, entries, logs]
    · intro l inside
      constructor
      · exact FileSystem.performAll_content fun p member ends => (leads p member).2 l ends inside
      · refine FileSystem.performAll_content fun p member ends => (leads p member).2 l ?_ inside
        rw [← (leads p member).1, ends]
    · exact kept.layout ▸ differ.directory
    · exact kept'.layout ▸ differ.directory'
    · intro report ended entry member more path
      obtain rfl := Except.ok.inj ended
      exact left.entry differ.directory base begun member path

namespace Sample

theorem below_disk : top.below disk = [([a],.link ⟨b.bytes⟩), ([b],.file .full), ([c],.file ⟨true,false,false⟩),
    ([libs],.directory .full), ([libs, a],.file .full)] := by decide +kernel

/-- The disk, but `libs` is closed and holds a link to itself in place of the file. -/
def sealedDisk : FileSystem :=
  { disk with layout := (disk.layout.place [libs] (.directory ⟨false,false,false⟩)).place [libs, a] (.link ⟨a.bytes⟩) }

theorem differBelow_sealedDisk : DifferBelow [libs] disk sealedDisk where
  cwd := rfl
  node := by
    intro l outside
    have other : l ≠ [libs] := by
      rintro rfl
      exact outside (List.prefix_refl _)
    have other' : l ≠ [libs, a] := by
      rintro rfl
      exact outside (by decide)
    rw [sealedDisk, Layout.node?_place (by simp), if_neg other', Layout.node?_place (by simp), if_neg other]
  content := fun _ _ _ => rfl
  directory := by decide +kernel
  directory' := by decide +kernel

/-- The one link leads to a file beside it, so nothing is looked up but in the top directory. -/
theorem looksUp_disk {l x : Location} {n : Name} {s : Segment} {target : Path}
    (node : disk.layout.node? (l ++ [n]) = some (.link target))
    (looks : disk.layout.LooksUp x s linkLimit l [.segment (.name n)]) : x = [] := by
  have listed : (l ++ [n],Node.link target) ∈ top.below disk := (top.mem_below disk).2 ⟨by simp,node⟩
  rw [below_disk] at listed
  simp only [List.mem_cons, List.not_mem_nil, Prod.mk.injEq, Node.link.injEq, reduceCtorEq, and_false, or_false] at listed
  obtain ⟨here,rfl⟩ := listed
  obtain ⟨rfl,same⟩ : l = [] ∧ [n] = [a] := List.append_inj' here rfl
  obtain rfl : n = a := List.singleton_inj.1 same
  cases looks with
  | here => rfl
  | down _ _ _ plain _ => exact absurd (Layout.isLink_iff.2 ⟨_,node⟩) plain
  | through _ _ link on =>
    rw [node, Option.some.injEq, Node.link.injEq] at link
    subst link
    have moves : Path.moves ⟨b.bytes⟩ = [.segment (.name b)] := by decide +kernel
    simp only [ite_self, moves, List.append_nil] at on
    cases on with
    | here => rfl
    | down _ _ _ _ on => cases on
    | through _ _ link _ =>
      have file : disk.layout.node? [b] = some (.file .full) := by decide +kernel
      rw [List.nil_append, file] at link
      cases link

theorem keepsClear_sealedDisk : KeepsClear [libs] disk sealedDisk settings.root where
  root := by
    intro names located
    obtain rfl : [] = names := Except.ok.inj located
    constructor
    · intro x n looks
      cases Layout.looksUp_moves_path.1 looks
    · intro s looks
      cases Layout.looksUp_moves_path.1 looks
  links := by
    intro l n target _ node
    constructor
    · intro x m looks inside
      obtain rfl := looksUp_disk node looks
      cases List.prefix_nil.1 inside
    · intro s looks
      cases looksUp_disk node looks

theorem findRoot_disk : disk.findRoot settings.root = .ok top :=
  FileSystem.findRoot_eq_ok_iff.2 (by decide +kernel)

theorem leavesAlone_libs : top.LeavesAlone settings.skip [libs] :=
  ⟨fun linked => Bool.noConfusion linked.2,by decide +kernel⟩

end Sample

/-- It makes no difference that `libs` is closed on the other disk. -/
theorem sample_walk_opaque : Sample.disk.findRoot Sample.settings.root = .ok Sample.top ∧
    Sample.top.LeavesAlone Sample.settings.skip [Sample.libs] ∧
    DifferBelow [Sample.libs] Sample.disk Sample.sealedDisk ∧
    KeepsClear [Sample.libs] Sample.disk Sample.sealedDisk Sample.settings.root ∧
    (Sample.sealedDisk.walk Sample.settings).result = .ok Sample.report ∧
    (Sample.sealedDisk.walk Sample.settings).log = (Sample.disk.walk Sample.settings).log := by
  obtain ⟨result,log,_⟩ := walk_opaque Sample.findRoot_disk Sample.leavesAlone_libs Sample.differBelow_sealedDisk
    Sample.keepsClear_sealedDisk
  exact ⟨Sample.findRoot_disk,Sample.leavesAlone_libs,Sample.differBelow_sealedDisk,Sample.keepsClear_sealedDisk,
    result.trans Sample.walk_result,log⟩

end ParamTidy

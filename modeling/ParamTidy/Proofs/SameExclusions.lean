import ParamTidy.Proofs.Components
import ParamTidy.Proofs.Locating

/-!
# Exclusions told apart

Exclusions are kept in the form in which they are compared, and that form stays as it is when it is compared again. So what is
kept can be read off from what is left alone (`SkipSet.IsFolded.mem_dirs_iff`, `SkipSet.IsFolded.mem_files_iff`), and
exclusions that leave the same directories and files alone are the same (`skipSet_eq_iff_alike`).
-/

namespace ParamTidy

/-! ## What is kept -/

namespace SkipSet

/-- The exclusions that can be had: none, the standard ones, and those of some names and paths on some disk. -/
inductive IsMade : SkipSet → Prop
  | empty : IsMade empty
  | standard : IsMade standard
  | lists {fs : FileSystem} {dirs : List Text} {files : List Path} {s : SkipSet} (made : fs.skipSet dirs files = .ok s) :
      IsMade s

/-- Exclusions kept in the form in which they are compared. -/
structure IsFolded (s : SkipSet) : Prop where
  dirs : ∀ k ∈ s.dirs, lowercase k = k
  files : ∀ k ∈ s.files, (Path.ofText k).isAbsolute ∧ (Path.ofText k).key = k

theorem mem_dirs_ofLists {dirs : List Text} {files : List Location} {k : Text} :
    k ∈ (ofLists dirs files).dirs ↔ ∃ n ∈ dirs, lowercase n = k := by
  rw [ofLists, Std.ExtTreeSet.mem_ofList, List.contains_iff_mem, List.mem_map]

theorem mem_files_ofLists {dirs : List Text} {files : List Location} {k : Text} :
    k ∈ (ofLists dirs files).files ↔ ∃ l ∈ files, l.path.key = k := by
  rw [ofLists, Std.ExtTreeSet.mem_ofList, List.contains_iff_mem, List.mem_map]

theorem ofLists_congr {dirs dirs' : List Text} (same : ∀ k, k ∈ dirs.map lowercase ↔ k ∈ dirs'.map lowercase)
    (files : List Location) : ofLists dirs files = ofLists dirs' files := by
  have kept : (ofLists dirs files).dirs = (ofLists dirs' files).dirs := by
    apply Std.ExtTreeSet.ext_mem
    intro k
    rw [mem_dirs_ofLists, mem_dirs_ofLists, ← List.mem_map, ← List.mem_map, same]
  rw [ofLists, ofLists, mk.injEq]
  exact ⟨kept,rfl⟩

theorem empty_eq_ofLists : empty = ofLists [] [] := rfl

theorem standard_eq_ofLists : standard = ofLists standardDirs [] := by
  have small : standardDirs.map lowercase = standardDirs := by decide +kernel
  rw [standard, ofLists, small]
  rfl

end SkipSet

namespace Location

theorem isAbsolute_ofText_key_path (l : Location) : (Path.ofText l.path.key).isAbsolute := by
  rw [ofText_key_path]
  exact isAbsolute_path _

/-- Taken for a path, what is compared is compared as it is. -/
theorem key_ofText_key_path (l : Location) : (Path.ofText l.path.key).key = l.path.key := by
  rw [ofText_key_path, key_path, key_path, components_path, components_path]
  simp [Function.comp_def]

end Location

theorem SkipSet.isFolded_ofLists (dirs : List Text) (files : List Location) : (ofLists dirs files).IsFolded := by
  constructor
  · intro k member
    obtain ⟨n,_,rfl⟩ := mem_dirs_ofLists.1 member
    exact lowercase_lowercase n
  · intro k member
    obtain ⟨l,_,rfl⟩ := mem_files_ofLists.1 member
    exact ⟨l.isAbsolute_ofText_key_path,l.key_ofText_key_path⟩

/-! ## What is left alone -/

namespace SkipSet.IsFolded

variable {s : SkipSet} (folded : s.IsFolded)
include folded

/-- A name is kept if it is in small letters and directories of that name are left alone. -/
theorem mem_dirs_iff {k : Text} : k ∈ s.dirs ↔ lowercase k = k ∧ s.skipsDir k := by
  constructor
  · intro kept
    have small := folded.dirs k kept
    refine ⟨small,?_⟩
    rw [skipsDir, small]
    exact Std.ExtTreeSet.contains_iff_mem.2 kept
  · rintro ⟨small,left⟩
    rw [skipsDir, small] at left
    exact Std.ExtTreeSet.contains_iff_mem.1 left

/-- What is compared of a path is kept if it is that of the path it spells, and the file at that path is left alone. -/
theorem mem_files_iff {k : Text} :
    k ∈ s.files ↔ (Path.ofText k).isAbsolute ∧ (Path.ofText k).key = k ∧ s.skipsFile (.ofText k) := by
  constructor
  · intro kept
    obtain ⟨absolute,own⟩ := folded.files k kept
    refine ⟨absolute,own,?_⟩
    rw [skipsFile, own]
    exact Std.ExtTreeSet.contains_iff_mem.2 kept
  · rintro ⟨_,own,left⟩
    rw [skipsFile, own] at left
    exact Std.ExtTreeSet.contains_iff_mem.1 left

/-- Exclusions that leave the same directories and files alone are the same. -/
theorem eq_of_alike {t : SkipSet} (folded' : t.IsFolded) (dirs : ∀ name, s.skipsDir name = t.skipsDir name)
    (files : ∀ p : Path, p.isAbsolute → s.skipsFile p = t.skipsFile p) : s = t := by
  have same_dirs : s.dirs = t.dirs := by
    apply Std.ExtTreeSet.ext_mem
    intro k
    rw [folded.mem_dirs_iff, folded'.mem_dirs_iff, dirs]
  have same_files : s.files = t.files := by
    apply Std.ExtTreeSet.ext_mem
    intro k
    rw [folded.mem_files_iff, folded'.mem_files_iff]
    refine and_congr_right fun absolute => ?_
    rw [files _ absolute]
  cases s
  cases t
  simp_all

end SkipSet.IsFolded

/-! ## Lists of names and paths -/

theorem mapM_congr_of_forall₂ {α β ε : Type} {f : α → Except ε β} {l l' : List α}
    (same : List.Forall₂ (fun a b => f b = f a) l l') : l'.mapM f = l.mapM f := by
  induction same with
  | nil => rfl
  | cons head _ ih => rw [List.mapM_cons, List.mapM_cons, head, ih]

theorem map_lowercase_eq {dirs dirs' : List Text} (respelled : List.Forall₂ (fun n m => m = n ∨ m = lowercase n) dirs dirs') :
    dirs'.map lowercase = dirs.map lowercase := by
  induction respelled with
  | nil => rfl
  | cons head _ ih =>
    rw [List.map_cons, List.map_cons, ih]
    rcases head with rfl | rfl
    · rfl
    · rw [lowercase_lowercase]

namespace FileSystem

variable {fs : FileSystem} {dirs : List Text} {files : List Path}

theorem exists_ofLists_of_skipSet {s : SkipSet} (made : fs.skipSet dirs files = .ok s) :
    ∃ locations, s = .ofLists dirs locations := by
  unfold skipSet at made
  cases located : files.mapM fun f => (fs.locate f).mapError fun e => Failure.environment f (.system e) with
  | error e => simp [located, Except.map] at made
  | ok locations =>
    rw [located, Except.map, Except.ok.injEq] at made
    exact ⟨locations,made.symm⟩

/-- Which names are given does not matter, only what they are in small letters. -/
theorem skipSet_congr_dirs {dirs' : List Text} (same : ∀ k, k ∈ dirs.map lowercase ↔ k ∈ dirs'.map lowercase) :
    fs.skipSet dirs files = fs.skipSet dirs' files := by
  have alike : SkipSet.ofLists dirs = SkipSet.ofLists dirs' := funext (SkipSet.ofLists_congr same)
  rw [skipSet, skipSet, alike]

/-- A path may be given as the path of its location, if it has one. -/
theorem skipSet_congr_files {files' : List Path}
    (same : List.Forall₂ (fun f g => g = f ∨ ∃ l, fs.locate f = .ok l ∧ g = l.path) files files') :
    fs.skipSet dirs files' = fs.skipSet dirs files := by
  rw [skipSet, skipSet]
  congr 1
  apply mapM_congr_of_forall₂
  refine same.imp ?_
  rintro f g (rfl | ⟨l,located,rfl⟩)
  · rfl
  · rw [located, fs.locate_path]
    rfl

end FileSystem

theorem SkipSet.IsMade.isFolded {s : SkipSet} (made : s.IsMade) : s.IsFolded := by
  cases made with
  | empty =>
    rw [empty_eq_ofLists]
    exact isFolded_ofLists _ _
  | standard =>
    rw [standard_eq_ofLists]
    exact isFolded_ofLists _ _
  | lists made =>
    obtain ⟨locations,rfl⟩ := FileSystem.exists_ofLists_of_skipSet made
    exact isFolded_ofLists _ _

/-- Exclusions are the same exactly if they leave alone the same directories, by their names, and the same files, by their
absolute paths, however they have been made. So they do not hang on the order in which names are given, nor on how often, nor on
capital letters in them, nor on the spelling of the paths that are given. -/
theorem skipSet_eq_iff_alike :
    (∀ s t : SkipSet, s.IsMade → t.IsMade → (s = t ↔
      (∀ name, s.skipsDir name = t.skipsDir name) ∧ ∀ p : Path, p.isAbsolute → s.skipsFile p = t.skipsFile p)) ∧
    ∀ (fs : FileSystem) (dirs : List Text) (files : List Path),
      (∀ dirs', (∀ n, n ∈ dirs' ↔ n ∈ dirs) → fs.skipSet dirs' files = fs.skipSet dirs files) ∧
      (∀ dirs', List.Forall₂ (fun n m => m = n ∨ m = lowercase n) dirs dirs' →
        fs.skipSet dirs' files = fs.skipSet dirs files) ∧
      (∀ files', List.Forall₂ (fun f g => g = f ∨ ∃ l, fs.locate f = .ok l ∧ g = l.path) files files' →
        fs.skipSet dirs files' = fs.skipSet dirs files) := by
  refine ⟨?_,fun fs dirs files => ⟨?_,?_,fun files' => FileSystem.skipSet_congr_files⟩⟩
  · intro s t made made'
    constructor
    · rintro rfl
      exact ⟨fun _ => rfl,fun _ _ => rfl⟩
    · rintro ⟨dirs,files⟩
      exact made.isFolded.eq_of_alike made'.isFolded dirs files
  · intro dirs' same
    apply FileSystem.skipSet_congr_dirs
    intro k
    simp only [List.mem_map, same]
  · intro dirs' respelled
    apply FileSystem.skipSet_congr_dirs
    intro k
    rw [map_lowercase_eq respelled]

/-- The standard exclusions in another order, twice and in capital letters. -/
example : SkipSet.ofLists ["LIBS".toList, "ThirdParty".toList, "libs".toList, "Extern".toList] [] = .standard := by
  decide +kernel

end ParamTidy

import Mathlib.Data.List.Forall2
import ParamTidy.FileSystem
import ParamTidy.Path.Spelling
import ParamTidy.Proofs.LossyText
import ParamTidy.Proofs.Lowercasing
import ParamTidy.Proofs.Misreading

/-!
# Excluded files, component by component

Paths are compared as whole texts, lower-cased. A slash ends every word, and no other character is lower-cased to one, so the
comparison is one of components: taken for a path again, the compared form has the lower-cased components of the path and no
others (`Path.ofText_key`), and a file is left alone if its components are those of the excluded path, in capital or small
letters (`skipsFile_componentwise`).
-/

namespace ParamTidy

/-! ## Texts of components -/

def Segment.text : Segment → Text
  | here => ['.']
  | up => ['.', '.']
  | name n => n.text

/-- What stands between the slashes of a path, as shown to a reader. -/
def Path.components (p : Path) : List Text := p.segments.map Segment.text

/-- What works apart on both sides of a separator works apart on all that is separated. -/
theorem map_intercalate {α β : Type} {f : List α → List β} {x : α} {y : β} (nothing : f [] = [])
    (parts : ∀ s t, f (s ++ x :: t) = f s ++ y :: f t) (ls : List (List α)) :
    f (List.intercalate [x] ls) = List.intercalate [y] (ls.map f) := by
  induction ls with
  | nil => exact nothing
  | cons s ls ih =>
    cases ls with
    | nil => simp
    | cons t ls => simpa [List.intercalate_cons_cons, parts] using ih

theorem lossy_spell (l : List Name) : Utf8.lossy (spell l) = List.intercalate ['/'] (l.map Name.text) := by
  have parts (a b : Bytes) : Utf8.lossy (a ++ slash :: b) = Utf8.lossy a ++ '/' :: Utf8.lossy b :=
    Utf8.lossy_append_ascii (by decide) b a
  rw [spell, map_intercalate Utf8.lossy_nil parts, List.map_map]
  rfl

theorem encode_intercalate (ts : List Text) :
    Utf8.encode (List.intercalate ['/'] ts) = List.intercalate [slash] (ts.map Utf8.encode) := by
  refine map_intercalate rfl (fun s t => ?_) ts
  rw [Utf8.encode_append, Utf8.encode_cons]
  rfl

theorem lowercase_slash (s t : Text) : lowercase (s ++ '/' :: t) = lowercase s ++ '/' :: lowercase t := by
  have stops : StopsWords '/' := by
    constructor <;> decide +kernel
  have same : lowerChar '/' = ['/'] := lowerChar_of_lt (by decide)
  rw [lowercase_append stops, same, List.append_assoc, List.singleton_append]

theorem lowercase_intercalate (ts : List Text) :
    lowercase (List.intercalate ['/'] ts) = List.intercalate ['/'] (ts.map lowercase) :=
  map_intercalate rfl lowercase_slash ts

/-! ## Names in small letters -/

theorem Utf8.encode_inj {t u : Text} : encode t = encode u ↔ t = u := by
  refine ⟨fun same => ?_,congrArg encode⟩
  have read := decode?_encode t
  rwa [same, decode?_encode, Option.some.injEq, eq_comm] at read

theorem slash_mem_encode {t : Text} (member : slash ∈ Utf8.encode t) : '/' ∈ t := by
  obtain ⟨c,inside,member⟩ := List.mem_flatMap.1 member
  by_cases low : c.toNat < 0x80
  · rw [Utf8.encodeChar_ascii low, List.mem_singleton] at member
    have number : c.toNat = 0x2F := by
      rw [← Utf8.toNat_ofNat_octet (show c.toNat < 256 by omega), ← member]
      rfl
    have same : c = '/' := by rw [← Char.ofNat_toNat c, number]
    exact same ▸ inside
  · obtain ⟨lead,tail,written,first,later⟩ := Utf8.encodeChar_high (Nat.le_of_not_lt low)
    rw [written] at member
    rcases List.mem_cons.1 member with rfl | member
    · exact absurd first (by decide)
    · exact absurd (later slash member) (by decide)

theorem isName_encode {t : Text} (nonempty : t ≠ []) (here : t ≠ ['.']) (up : t ≠ ['.', '.']) (whole : '/' ∉ t) :
    isName (Utf8.encode t) = true := by
  have other {u : Text} (ne : t ≠ u) : Utf8.encode t ≠ Utf8.encode u := fun same => ne (Utf8.encode_inj.1 same)
  simp only [isName, Bool.and_eq_true, bne_iff_ne, Bool.not_eq_true', List.contains_eq_mem, decide_eq_false_iff_not]
  exact ⟨⟨⟨other nonempty,other here⟩,other up⟩,fun member => whole (slash_mem_encode member)⟩

namespace Name

variable (n : Name)

/-- A name is not lower-cased to what cannot be a name. -/
theorem lowercase_text_ne {t : Text} (low : ∀ d ∈ t, d.toNat < 0x61) (unnamed : isName (Utf8.encode t) = false) :
    lowercase n.text ≠ t := by
  intro same
  have kept : lowercase n.text = n.text := lowercaseAfter_eq_self (by rwa [← lowercase, same])
  have plain : '\uFFFD' ∉ t := fun member => absurd (low _ member) (by decide)
  have written : n.bytes = Utf8.encode t := Utf8.eq_encode_of_lossy (kept.symm.trans same) plain
  have allowed := n.allowed
  rw [written, unnamed] at allowed
  cases allowed

theorem slash_notMem_lowercase : '/' ∉ lowercase n.text := by
  intro member
  have shown : '/' ∈ n.text := mem_of_mem_lowercaseAfter (by decide) member
  exact n.slash_notMem (Utf8.mem_of_mem_lossy shown (by decide) slash (by decide))

theorem isName_lowercase : isName (Utf8.encode (lowercase n.text)) = true :=
  isName_encode (n.lowercase_text_ne (by simp) (by decide)) (n.lowercase_text_ne (by simp) (by decide))
    (n.lowercase_text_ne (by simp) (by decide)) n.slash_notMem_lowercase

def lowered : Name := ⟨Utf8.encode (lowercase n.text),n.isName_lowercase⟩

@[simp] theorem text_lowered : n.lowered.text = lowercase n.text := Utf8.lossy_encode _

theorem lowered_inj {n m : Name} : n.lowered = m.lowered ↔ lowercase n.text = lowercase m.text := by
  rw [lowered, lowered, mk.injEq, Utf8.encode_inj]

end Name

/-! ## Paths in small letters -/

namespace Location

variable (l : Location)

theorem components_path : l.path.components = l.map Name.text := by
  rw [Path.components, segments_path, List.map_map]
  rfl

theorem text_path : l.path.text = '/' :: List.intercalate ['/'] l.path.components := by
  have shown : Utf8.lossy (slash :: spell l) = '/' :: Utf8.lossy (spell l) := by
    have apart := Utf8.lossy_append_ascii (b := slash) (by decide) (spell l) []
    rwa [Utf8.lossy_nil, List.nil_append, List.nil_append] at apart
  rw [path, Path.text, shown, lossy_spell, ← components_path]
  rfl

theorem key_path : l.path.key = '/' :: List.intercalate ['/'] (l.path.components.map lowercase) := by
  rw [Path.key, clean_path, text_path, ← lowercase_intercalate]
  exact lowercase_slash [] _

/-- Taken for a path, what is compared leads to the location in small letters. -/
theorem ofText_key_path : Path.ofText l.path.key = path (l.map Name.lowered) := by
  have written : Utf8.encode l.path.key = slash :: spell (l.map Name.lowered) := by
    rw [key_path, Utf8.encode_cons, encode_intercalate, components_path, spell]
    simp only [List.map_map]
    rfl
  rw [Path.ofText, written, path]

/-- Two locations are compared equal if they are as deep as each other and their names agree in small letters. -/
theorem key_path_inj {l m : Location} : l.path.key = m.path.key ↔
    List.Forall₂ (fun s t => lowercase s = lowercase t) l.path.components m.path.components := by
  have lowered : l.path.key = m.path.key ↔ l.map Name.lowered = m.map Name.lowered := by
    constructor
    · intro same
      rw [← path_inj, ← ofText_key_path, same, ofText_key_path]
    · intro same
      have texts : l.path.components.map lowercase = m.path.components.map lowercase := by
        simpa [components_path, Function.comp_def] using congrArg (List.map Name.text) same
      rw [key_path, key_path, texts]
  rw [lowered, ← List.forall₂_eq_eq_eq]
  simp only [components_path, List.forall₂_map_left_iff, List.forall₂_map_right_iff, Name.lowered_inj]

end Location

namespace Path

theorem clean_of_isAbsolute {p : Path} (absolute : p.isAbsolute) : p.clean = (p.locate []).path := by
  rw [clean, if_pos absolute]

theorem key_of_isAbsolute {p : Path} (absolute : p.isAbsolute) : p.key = (p.locate []).path.key := by
  rw [key, key, clean_of_isAbsolute absolute, Location.clean_path]

/-- Taken for a path, what is compared of an absolute path has its components in small letters, one for one, and is clean. -/
theorem ofText_key {p : Path} (absolute : p.isAbsolute) :
    (ofText p.key).components = p.clean.components.map lowercase ∧ (ofText p.key).clean = ofText p.key := by
  rw [key_of_isAbsolute absolute, Location.ofText_key_path, clean_of_isAbsolute absolute]
  simp [Location.components_path]

end Path

theorem FileSystem.skipSet_singleton {fs : FileSystem} {f : Path} {l : Location} (located : fs.locate f = .ok l) :
    fs.skipSet [] [f] = .ok (.ofLists [] [l]) := by
  simp [skipSet, located, Except.mapError, Except.map, pure, Except.pure, bind, Except.bind]

theorem SkipSet.skipsFile_singleton (l : Location) (p : Path) : (ofLists [] [l]).skipsFile p ↔ l.path.key = p.key := by
  rw [skipsFile, ofLists, List.map_singleton, Std.ExtTreeSet.contains_ofList, List.contains_iff_mem, List.mem_singleton, eq_comm]

/-- Whether a file is left alone is decided component by component. Where the excluded path can be located, an absolute path is
left alone exactly if its clean form has as many components and each is that of the excluded one in capital or small letters,
however either path is spelled. For letters are lower-cased within components: a slash ends every word, and components neither
merge nor fall apart, vanish or come up. -/
theorem skipsFile_componentwise {fs : FileSystem} {f p : Path} {l : Location} (located : fs.locate f = .ok l)
    (absolute : p.isAbsolute) :
    (∃ skip, fs.skipSet [] [f] = .ok skip ∧ (skip.skipsFile p ↔
      List.Forall₂ (fun s t => lowercase s = lowercase t) l.path.components p.clean.components)) ∧
    p.clean.text = '/' :: List.intercalate ['/'] p.clean.components ∧
    p.key = '/' :: List.intercalate ['/'] (p.clean.components.map lowercase) ∧
    (Path.ofText p.key).components = p.clean.components.map lowercase := by
  refine ⟨⟨_,FileSystem.skipSet_singleton located,?_⟩,?_,?_,(Path.ofText_key absolute).1⟩
  · rw [SkipSet.skipsFile_singleton, Path.key_of_isAbsolute absolute, Location.key_path_inj, Path.clean_of_isAbsolute absolute]
  · rw [Path.clean_of_isAbsolute absolute, ← Location.text_path]
  · rw [Path.key_of_isAbsolute absolute, Location.key_path, Path.clean_of_isAbsolute absolute]

namespace Sample

/-- A disk with a process in the directory `w`. -/
def emptyDisk : FileSystem := ⟨.empty,∅,.present ((Path.ofString "/w").locate [])⟩

/-- A file to leave alone. In small letters the first name ends in a final sigma, and the second begins with another one. -/
def greekFile : Path := .ofString "ΟΔΟΣ/x/..//./Σ.H"

def greekLocation : Location := (Path.ofString "/w/ΟΔΟΣ/Σ.H").locate []

/-- The same file spelled otherwise. -/
def greekSpelling : Path := .ofString "//W/../w/οδος/σ.h/"

end Sample

/-- The sigma at the end of the first name is a final one although a letter comes after the slash. -/
theorem sample_skipsFile_componentwise : Sample.emptyDisk.locate Sample.greekFile = .ok Sample.greekLocation ∧
    Sample.greekSpelling.isAbsolute ∧ ∃ skip, Sample.emptyDisk.skipSet [] [Sample.greekFile] = .ok skip ∧
      skip.skipsFile Sample.greekSpelling ∧ Sample.greekSpelling.key = "/w/οδος/σ.h".toList := by
  have located : Sample.emptyDisk.locate Sample.greekFile = .ok Sample.greekLocation := by decide +kernel
  have absolute : Sample.greekSpelling.isAbsolute := by decide +kernel
  obtain ⟨⟨skip,built,left⟩,_,shown,_⟩ := skipsFile_componentwise located absolute
  refine ⟨located,absolute,skip,built,left.2 (by decide +kernel),?_⟩
  rw [shown]
  decide +kernel

end ParamTidy

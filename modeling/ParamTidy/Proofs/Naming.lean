import ParamTidy.Proofs.LossyText
import ParamTidy.Proofs.Lowercasing
import ParamTidy.SkipSet
import ParamTidy.SourceFile

/-!
# What names decide

Names need not be text, and what is asked of them is asked of the text that is shown. Whether a file is a source is
nevertheless decided by the last bytes of its name alone (`source_names_by_bytes`). The directories that are left alone unless
others are asked for are told by their names in small or capital letters of ASCII, and no character outside ASCII passes for
one of those (`standard_skipsDir_iff`).
-/

namespace ParamTidy

theorem isSourceName_lossy_iff {name : Bytes} :
    isSourceName (Utf8.lossy name) ↔ ∃ s ∈ sourceSuffixes, Utf8.encode s <:+ name := by
  have plain : ∀ s ∈ sourceSuffixes, '\uFFFD' ∉ s := by decide
  rw [isSourceName_iff]
  exact exists_congr fun s => and_congr_right fun suffix => Utf8.suffix_lossy_iff (plain s suffix)

/-- The name of a source file is one whose bytes end in `.c`, `.cpp` or `.h`, in these letters, be the bytes before them text or
not. No other ending comes or goes either when a name is shown, unless a replacement character is in it. -/
theorem source_names_by_bytes (name : Bytes) :
    (isSourceName (Utf8.lossy name) ↔
      [0x2E, 0x63] <:+ name ∨ [0x2E, 0x63, 0x70, 0x70] <:+ name ∨ [0x2E, 0x68] <:+ name) ∧
    ∀ t : Text, '\uFFFD' ∉ t → (t <:+ Utf8.lossy name ↔ Utf8.encode t <:+ name) := by
  refine ⟨?_,fun t plain => Utf8.suffix_lossy_iff plain⟩
  rw [isSourceName_lossy_iff]
  simp only [sourceSuffixes, List.mem_cons, List.not_mem_nil, or_false, exists_eq_or_imp, exists_eq_left]
  rfl

/-- An emoji that breaks off does not take the characters behind it along. -/
theorem sample_source_names_by_bytes : '\uFFFD' ∉ "é.c".toList ∧
    Utf8.lossy [0xF0, 0x9F, 0xC3, 0xA9, 0x2E, 0x63] = "\uFFFDé.c".toList ∧
    isSourceName (Utf8.lossy [0xF0, 0x9F, 0xC3, 0xA9, 0x2E, 0x63]) ∧
    "é.c".toList <:+ Utf8.lossy [0xF0, 0x9F, 0xC3, 0xA9, 0x2E, 0x63] := by
  have plain : '\uFFFD' ∉ "é.c".toList := by decide
  obtain ⟨marks,endings⟩ := source_names_by_bytes [0xF0, 0x9F, 0xC3, 0xA9, 0x2E, 0x63]
  exact ⟨plain,by decide +kernel,marks.2 (.inl (by decide)),(endings _ plain).2 (by decide +kernel)⟩

/-- The names kept by default are of ASCII and without a `k`, for which a Kelvin sign would pass. -/
theorem standardDirs_plain : ∀ t ∈ SkipSet.standardDirs, ∀ d ∈ t, d.toNat < 0x80 ∧ d ≠ 'k' := by
  have checked : (SkipSet.standardDirs.all fun t => t.all fun d => d.toNat < 0x80 ∧ d ≠ 'k') = true := by decide +kernel
  simpa only [List.all_eq_true, decide_eq_true_eq] using checked

theorem skipsDir_standard {name : Text} : SkipSet.standard.skipsDir name ↔ lowercase name ∈ SkipSet.standardDirs := by
  rw [SkipSet.skipsDir, SkipSet.standard, Std.ExtTreeSet.contains_iff_mem, Std.ExtTreeSet.mem_ofList, List.contains_iff_mem]

/-- By default a directory is left alone for its name exactly if the name is of ASCII and, but for capital letters, `extern`,
`libs` or `thirdparty`. So no name with another character in it is left alone, whatever its lower-case form begins with. -/
theorem standard_skipsDir_iff (name : Text) : SkipSet.standard.skipsDir name ↔
    (∀ c ∈ name, c.toNat < 0x80) ∧ name.map Char.toLower ∈ ["extern".toList, "libs".toList, "thirdparty".toList] := by
  rw [skipsDir_standard]
  constructor
  · intro kept
    obtain ⟨ascii,small⟩ := (lowercase_eq_iff (standardDirs_plain _ kept)).1 rfl
    exact ⟨ascii,small ▸ kept⟩
  · rintro ⟨ascii,kept⟩
    rw [(lowercase_eq_iff (standardDirs_plain _ kept)).2 ⟨ascii,rfl⟩]
    exact kept

/-- The lower-case form of the capital dotted I begins with an `i`, but there is more of it. -/
example : SkipSet.standard.skipsDir "ThirdParty".toList ∧ SkipSet.standard.skipsDir "LİBS".toList = false := by decide +kernel

end ParamTidy

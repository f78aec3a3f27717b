import ParamTidy.Path

/-!
# Paths of locations

The path of a location leads back to it, from any directory, and is the clean form of every path that leads there from the top.
-/

namespace ParamTidy

theorem pieces_eq_splitOn (b : Bytes) : pieces b = b.splitOn slash := by
  induction b with
  | nil => rfl
  | cons x b ih => simp only [pieces, ih, List.splitOn_cons_eq_if_modifyHead, beq_iff_eq]

theorem pieces_append (a b : Bytes) : pieces (a ++ slash :: b) = pieces a ++ pieces b := by
  rw [pieces_eq_splitOn, pieces_eq_splitOn, pieces_eq_splitOn, List.splitOn_append_cons_self]

theorem slash_notMem_of_mem_pieces {b s : Bytes} (piece : s ∈ pieces b) : slash ∉ s := by
  induction b generalizing s with
  | nil =>
    rw [pieces, List.mem_singleton] at piece
    rw [piece]
    exact List.not_mem_nil
  | cons x b ih =>
    rw [pieces] at piece
    by_cases here : x = slash
    · rw [if_pos here] at piece
      rcases List.mem_cons.1 piece with rfl | later
      · exact List.not_mem_nil
      · exact ih later
    · rw [if_neg here] at piece
      cases split : pieces b with
      | nil => simp [split] at piece
      | cons first more =>
        rw [split, List.modifyHead_cons] at piece
        rcases List.mem_cons.1 piece with rfl | later
        · have rest : slash ∉ first := ih (split ▸ List.mem_cons_self)
          rw [List.mem_cons, not_or]
          exact ⟨Ne.symm here,rest⟩
        · exact ih (split ▸ List.mem_cons_of_mem first later)

namespace Name

theorem slash_notMem (n : Name) : slash ∉ n.bytes := by
  have := n.allowed
  simp only [isName, Bool.and_eq_true, bne_iff_ne, Bool.not_eq_true', List.contains_eq_mem, decide_eq_false_iff_not] at this
  exact this.2

theorem bytes_ne (n : Name) : n.bytes ≠ [] ∧ n.bytes ≠ [dot] ∧ n.bytes ≠ [dot, dot] := by
  have := n.allowed
  simp only [isName, Bool.and_eq_true, bne_iff_ne] at this
  exact ⟨this.1.1.1,this.1.1.2,this.1.2⟩

end Name

@[simp] theorem Segment.ofBytes?_bytes (n : Name) : Segment.ofBytes? n.bytes = some (.name n) := by
  obtain ⟨_,here,up⟩ := n.bytes_ne
  simp [Segment.ofBytes?, here, up]

@[simp] theorem spell_nil : spell [] = [] := rfl

@[simp] theorem spell_singleton (n : Name) : spell [n] = n.bytes := by simp [spell]

theorem spell_cons_cons (n m : Name) (l : List Name) : spell (n :: m :: l) = n.bytes ++ slash :: spell (m :: l) := by
  simp [spell, List.intercalate]

theorem pieces_spell {l : List Name} (h : l ≠ []) : pieces (spell l) = l.map Name.bytes := by
  rw [pieces_eq_splitOn, spell, List.splitOn_intercalate]
  · intro b member
    obtain ⟨n,_,rfl⟩ := List.mem_map.1 member
    exact n.slash_notMem
  · simpa using h

theorem filterMap_ofBytes? (l : List Name) : (l.map Name.bytes).filterMap Segment.ofBytes? = l.map .name := by
  induction l with
  | nil => rfl
  | cons n l ih => simp [ih]

/-- The segments of names with slashes between them are the names. -/
theorem segments_spell (l : List Name) : Path.segments ⟨spell l⟩ = l.map .name := by
  cases l with
  | nil => rfl
  | cons n l => rw [Path.segments, pieces_spell (by simp), filterMap_ofBytes?]

theorem getLast?_spell {l : Location} (ne : l ≠ []) : (spell l).getLast? ≠ some slash ∧ spell l ≠ [] := by
  induction l with
  | nil => exact absurd rfl ne
  | cons n l ih =>
    cases l with
    | nil =>
      rw [spell_singleton]
      exact ⟨fun last => n.slash_notMem (List.mem_of_getLast? last),n.bytes_ne.1⟩
    | cons m l =>
      obtain ⟨noSlash,nonempty⟩ := ih (by simp)
      rw [spell_cons_cons]
      refine ⟨?_,by simp⟩
      cases rest : spell (m :: l) with
      | nil => exact absurd rest nonempty
      | cons b bytes =>
        rw [rest] at noSlash
        simpa [List.getLast?_append] using noSlash

namespace Location

@[simp] theorem isAbsolute_path (l : Location) : l.path.isAbsolute = true := by simp [path, Path.isAbsolute]

@[simp] theorem segments_path (l : Location) : l.path.segments = l.map .name := by
  rw [← segments_spell l]
  simp only [path, Path.segments, pieces, if_true, List.filterMap_cons]
  rfl

/-- The path of a location leads there from anywhere. -/
@[simp] theorem locate_path (l cwd : Location) : l.path.locate cwd = l := by
  simp [Path.locate, follow_names]

/-- The path of a location is clean. -/
@[simp] theorem clean_path (l : Location) : l.path.clean = l.path := by simp [Path.clean]

theorem asksDirectory_path {l : Location} (ne : l ≠ []) : l.path.asksDirectory = false := by
  obtain ⟨noSlash,nonempty⟩ := getLast?_spell ne
  cases spelled : spell l with
  | nil => exact absurd spelled nonempty
  | cons b bytes =>
    rw [spelled] at noSlash
    simpa [Path.asksDirectory, path, spelled] using noSlash

/-- No two locations have one path. -/
theorem path_inj {l m : Location} : l.path = m.path ↔ l = m :=
  ⟨fun h => by rw [← locate_path l [], h, locate_path],congrArg path⟩

end Location

end ParamTidy

import ParamTidy.FileSystem
import ParamTidy.Path.Spelling

/-!
# Locating paths

To locate a path is to cut it at its slashes and to read the stretches between them onto a stack (`Path.path_locate`). A path
that goes on from another one leads where it leads from the place of the other (`Path.locate_join`), so it makes no difference
to any path put behind a first one whether that has been made absolute and clean before (`locate_evaluates`).
-/

namespace ParamTidy

/-! ## The stack -/

/-- What is left of some stretches read one after another, the last one left first in `left`: an empty one and `.` change
nothing, `..` takes the last one away, if there is one, and any other is left behind it. -/
def remaining (left : List Bytes) : List Bytes → List Bytes
  | [] => left.reverse
  | s :: rest =>
    if s = [] ∨ s = [dot] then remaining left rest
    else if s = [dot, dot] then remaining left.tail rest
    else remaining (s :: left) rest

/-- The absolute path of what is left of bytes cut at their slashes. -/
def evaluate (b : Bytes) : Path := ⟨slash :: List.intercalate [slash] (remaining [] (b.splitOn slash))⟩

/-- Absolute, without `.`, `..`, an empty stretch or a slash at the end, but for the top itself, which is a slash alone. -/
structure Path.IsClean (p : Path) : Prop where
  absolute : p.isAbsolute
  plain : p.bytes = [slash] ∨ ∀ s ∈ p.bytes.tail.splitOn slash, s ≠ [] ∧ s ≠ [dot] ∧ s ≠ [dot, dot]
  ending : p.asksDirectory → p.bytes = [slash]

namespace Segment

theorem ofBytes?_nil : ofBytes? [] = none := rfl

theorem ofBytes?_here : ofBytes? [dot] = some .here := rfl

theorem ofBytes?_up : ofBytes? [dot, dot] = some .up := rfl

/-- A stretch between slashes that is none of the special ones is a name. -/
theorem exists_ofBytes?_name {s : Bytes} (nonempty : s ≠ []) (here : s ≠ [dot]) (up : s ≠ [dot, dot])
    (whole : slash ∉ s) : ∃ n : Name, n.bytes = s ∧ ofBytes? s = some (.name n) := by
  have allowed : isName s = true := by simp [isName, nonempty, here, up, whole]
  exact ⟨⟨s,allowed⟩,rfl,ofBytes?_bytes ⟨s,allowed⟩⟩

end Segment

/-- Reading stretches onto a stack follows their segments. -/
theorem follow_pieces (left : List Name) {stretches : List Bytes} (whole : ∀ s ∈ stretches, slash ∉ s) :
    (Location.follow left.reverse (stretches.filterMap Segment.ofBytes?)).map Name.bytes =
      remaining (left.map Name.bytes) stretches := by
  induction stretches generalizing left with
  | nil => simp [Location.follow, remaining]
  | cons s rest ih =>
    have further (left : List Name) := ih left fun t member => whole t (List.mem_cons_of_mem s member)
    by_cases empty : s = []
    · rw [remaining, if_pos (.inl empty), empty, List.filterMap_cons_none Segment.ofBytes?_nil, further]
    by_cases here : s = [dot]
    · rw [remaining, if_pos (.inr here), here, List.filterMap_cons_some Segment.ofBytes?_here, ← further]
      rfl
    have other : ¬ (s = [] ∨ s = [dot]) := not_or.2 ⟨empty,here⟩
    by_cases up : s = [dot, dot]
    · rw [remaining, if_neg other, if_pos up, up, List.filterMap_cons_some Segment.ofBytes?_up, ← List.map_tail, ← further,
        ← List.dropLast_reverse]
      rfl
    · obtain ⟨n,rfl,read⟩ := Segment.exists_ofBytes?_name empty here up (whole s List.mem_cons_self)
      rw [remaining, if_neg other, if_neg up, List.filterMap_cons_some read, ← List.map_cons, ← further, List.reverse_cons]
      rfl

/-! ## Paths -/

namespace Path

theorem locate_of_isAbsolute {p : Path} (absolute : p.isAbsolute) (cwd : Location) : p.locate cwd = p.locate [] := by
  rw [locate, locate, if_pos absolute, if_pos absolute]

theorem segments_append (a b : Bytes) : segments ⟨a ++ slash :: b⟩ = segments ⟨a⟩ ++ segments ⟨b⟩ := by
  simp only [segments, pieces_append, List.filterMap_append]

/-- From the top a path leads to what is left of its bytes. -/
theorem path_locate (p : Path) : (p.locate []).path = evaluate p.bytes := by
  have whole : ∀ s ∈ pieces p.bytes, slash ∉ s := fun s piece => slash_notMem_of_mem_pieces piece
  have left := follow_pieces [] whole
  rw [List.map_nil, List.reverse_nil, pieces_eq_splitOn] at left
  rw [locate, ite_self, Location.path, spell, segments, pieces_eq_splitOn, left, evaluate]

theorem isAbsolute_append {a : Bytes} (nonempty : a ≠ []) (b : Bytes) :
    isAbsolute ⟨a ++ b⟩ = isAbsolute ⟨a⟩ := by
  obtain ⟨x,a,rfl⟩ := List.exists_cons_of_ne_nil nonempty
  rfl

theorem ne_nil_of_isAbsolute {p : Path} (absolute : p.isAbsolute) : p.bytes ≠ [] := by
  intro empty
  simp [isAbsolute, empty] at absolute

/-- A relative path behind another one, with a slash between them, leads on from there. -/
theorem locate_append {p q : Path} (nonempty : p.bytes ≠ []) (relative : ¬ q.isAbsolute) (cwd : Location) :
    locate cwd ⟨p.bytes ++ slash :: q.bytes⟩ = q.locate (p.locate cwd) := by
  rw [locate, locate, locate, isAbsolute_append nonempty, segments_append, Location.follow_append, if_neg relative]

/-- A path behind another one leads where it leads from the place of that one. -/
theorem locate_join (p q : Path) (cwd : Location) : (p.join q).locate cwd = q.locate (p.locate cwd) := by
  unfold join
  by_cases absolute : q.isAbsolute
  · rw [if_pos absolute, locate_of_isAbsolute absolute, locate_of_isAbsolute absolute (p.locate cwd)]
  rw [if_neg absolute]
  by_cases empty : p.bytes = []
  · have nowhere : p.locate cwd = cwd := by
      obtain ⟨bytes⟩ := p
      obtain rfl : bytes = [] := empty
      rfl
    rw [if_pos (.inl empty), empty, nowhere, List.nil_append]
  by_cases shut : p.asksDirectory
  · obtain ⟨front,split⟩ : ∃ front, p.bytes = front ++ [slash] := by
      rw [asksDirectory, beq_iff_eq] at shut
      exact List.getLast?_eq_some_iff.1 shut
    have same : p.segments = segments ⟨front⟩ := by
      rw [segments, split]
      exact (segments_append front []).trans (List.append_nil _)
    have both : p.bytes ++ q.bytes = front ++ slash :: q.bytes := by rw [split, List.append_assoc, List.singleton_append]
    rw [if_pos (.inr shut), locate, locate, locate, isAbsolute_append empty, both, segments_append, ← same,
      Location.follow_append, if_neg absolute]
  · rw [if_neg (by simp [empty, shut]), locate_append empty absolute]

theorem isAbsolute_join {p : Path} (absolute : p.isAbsolute) (q : Path) : (p.join q).isAbsolute := by
  have nonempty := ne_nil_of_isAbsolute absolute
  unfold join
  by_cases alone : q.isAbsolute
  · rwa [if_pos alone]
  rw [if_neg alone]
  by_cases shut : p.bytes = [] ∨ p.asksDirectory
  · rw [if_pos shut, isAbsolute_append nonempty]
    exact absolute
  · rw [if_neg shut, isAbsolute_append nonempty]
    exact absolute

end Path

theorem Location.isClean_path (l : Location) : l.path.IsClean := by
  refine ⟨l.isAbsolute_path,?_,?_⟩
  · by_cases top : l = []
    · exact .inl (by rw [top]; rfl)
    · right
      intro s member
      have pieces : l.path.bytes.tail.splitOn slash = l.map Name.bytes := by
        rw [← pieces_spell top, pieces_eq_splitOn]
        rfl
      rw [pieces] at member
      obtain ⟨n,_,rfl⟩ := List.mem_map.1 member
      exact n.bytes_ne
  · intro shut
    by_cases top : l = []
    · rw [top]
      rfl
    · rw [asksDirectory_path top] at shut
      cases shut

/-! ## From the current directory -/

namespace FileSystem

variable {fs : FileSystem} {p : Path}

/-- A path is located from the current directory, which an absolute one has no need of. -/
theorem locate_eq_ok_iff {l : Location} :
    fs.locate p = .ok l ↔ ∃ start, (p.isAbsolute ∨ fs.cwd = .present start) ∧ p.locate start = l := by
  unfold locate
  by_cases absolute : p.isAbsolute
  · simp [absolute, Path.locate_of_isAbsolute absolute]
  · cases cwd : fs.cwd with
    | present start => simp [absolute]
    | removed above gone => simp [absolute]

theorem locate_eq_error_iff {e : SystemError} :
    fs.locate p = .error e ↔ ¬ p.isAbsolute ∧ (∃ above gone, fs.cwd = .removed above gone) ∧ e = .notFound := by
  unfold locate
  by_cases absolute : p.isAbsolute
  · simp [absolute]
  · cases cwd : fs.cwd with
    | present l => simp [absolute]
    | removed above gone => simp [absolute, eq_comm]

theorem locate_path (fs : FileSystem) (l : Location) : fs.locate l.path = .ok l :=
  locate_eq_ok_iff.2 ⟨[],.inl l.isAbsolute_path,l.locate_path []⟩

/-- It makes no difference to a path put behind another one whether that has been located before. -/
theorem locate_join {l : Location} (located : fs.locate p = .ok l) (q : Path) :
    fs.locate (p.join q) = fs.locate (l.path.join q) := by
  obtain ⟨start,known,rfl⟩ := locate_eq_ok_iff.1 located
  have direct : fs.locate (p.join q) = .ok (q.locate (p.locate start)) := by
    refine locate_eq_ok_iff.2 ⟨start,?_,p.locate_join q start⟩
    exact known.imp_left fun absolute => Path.isAbsolute_join absolute q
  have twice : fs.locate ((p.locate start).path.join q) = .ok (q.locate (p.locate start)) := by
    apply locate_eq_ok_iff.2
    exact ⟨start,.inl (Path.isAbsolute_join (Location.isAbsolute_path _) q),by rw [Path.locate_join, Location.locate_path]⟩
  rw [direct, twice]

/-- With the current directory spelled in any way, a path is located by what is left of it, put behind that if it is relative. -/
theorem exists_locate {cwd : Path} (absolute : cwd.isAbsolute) (known : p.isAbsolute ∨ fs.cwd = .present (cwd.locate [])) :
    ∃ l, fs.locate p = .ok l ∧ l.path = evaluate (if p.isAbsolute then p.bytes else cwd.bytes ++ slash :: p.bytes) := by
  refine ⟨_,locate_eq_ok_iff.2 ⟨cwd.locate [],known,rfl⟩,?_⟩
  by_cases alone : p.isAbsolute
  · rw [if_pos alone, Path.locate_of_isAbsolute alone, Path.path_locate]
  · rw [if_neg alone, ← Path.locate_append (Path.ne_nil_of_isAbsolute absolute) alone, Path.path_locate]

end FileSystem

/-- To locate a path is to evaluate it lexically. The path alone, if it is absolute, or else any spelling of the current
directory with the path behind it is cut at the slashes, and the stretches are read onto a stack. What comes out is clean, is
located where it is, and may stand for the path in front of any other one. Only a relative path cannot be located, and only
where the current directory is gone. -/
theorem locate_evaluates (fs : FileSystem) (p : Path) :
    (∀ cwd : Path, cwd.isAbsolute → p.isAbsolute ∨ fs.cwd = .present (cwd.locate []) → ∃ l, fs.locate p = .ok l ∧
      l.path = evaluate (if p.isAbsolute then p.bytes else cwd.bytes ++ slash :: p.bytes)) ∧
    (∀ l, fs.locate p = .ok l → l.path.IsClean ∧ fs.locate l.path = .ok l ∧
      ∀ q, fs.locate (p.join q) = fs.locate (l.path.join q)) ∧
    ((∃ e, fs.locate p = .error e) ↔ ¬ p.isAbsolute ∧ ∀ l, fs.cwd ≠ .present l) := by
  refine ⟨fun cwd absolute known => FileSystem.exists_locate absolute known,?_,?_⟩
  · intro l located
    exact ⟨l.isClean_path,fs.locate_path l,FileSystem.locate_join located⟩
  · simp only [FileSystem.locate_eq_error_iff]
    cases fs.cwd with
    | present l => simp
    | removed above gone => simp

/-- More `..` than there are names before them lead to the top and no further. -/
example : evaluate (Path.ofString "/w/./x//../../../y/").bytes = Path.ofString "/y" := by decide +kernel

end ParamTidy

import ParamTidy.Proofs.Coverage

/-!
# Going down first

A walk that goes down first and sorts the names of each directory (`Root.descend`) comes to the places that are met and call
for a visit, in whatever order the names of a directory are listed: `mem_descend` says what it comes to, `descend_pairwise` in
which order, and `descend_eq_itinerary` that these are the visits in the order of their places (`Location.Precedes`).
-/

namespace ParamTidy

/-! ## The order of places -/

/-- The order of places: at the first names that differ the bytes of these decide, and a directory comes before what lies in it.
-/
def Location.Precedes : Location → Location → Prop := List.Lex fun n m => n.bytes < m.bytes

theorem compare_eq_lt_iff_lex {α : Type} [Ord α] [Std.LawfulEqOrd α] {less : α → α → Prop}
    (decides : ∀ x y : α, compare x y = .lt ↔ less x y) (a b : List α) : compare a b = .lt ↔ List.Lex less a b := by
  induction a generalizing b with
  | nil =>
    cases b with
    | nil => exact ⟨fun lt => Ordering.noConfusion lt,fun lex => absurd lex List.not_lex_nil⟩
    | cons y b => exact ⟨fun _ => .nil,fun _ => rfl⟩
  | cons x a ih =>
    cases b with
    | nil => exact ⟨fun lt => Ordering.noConfusion lt,fun lex => absurd lex List.not_lex_nil⟩
    | cons y b =>
      have step : compare (x :: a) (y :: b) = (compare x y).then (compare a b) := List.compareLex_cons_cons
      rw [step, Ordering.then_eq_lt, List.cons_lex_cons_iff, decides, ih, Std.LawfulEqOrd.compare_eq_iff_eq]

theorem Name.compare_eq_lt_iff {n m : Name} : compare n m = .lt ↔ n.bytes < m.bytes :=
  compare_eq_lt_iff_lex (fun _ _ => Std.LawfulLTCmp.eq_lt_iff_lt) n.bytes m.bytes

/-- This is the order in which a layout keeps its places. -/
theorem Location.compare_eq_lt_iff {a b : Location} : compare a b = .lt ↔ a.Precedes b :=
  compare_eq_lt_iff_lex (fun _ _ => Name.compare_eq_lt_iff) a b

namespace Location.Precedes

theorem ne {a b : Location} (before : a.Precedes b) : a ≠ b := ne_of_compare_lt (compare_eq_lt_iff.2 before)

theorem asymm {a b : Location} (before : a.Precedes b) (after : b.Precedes a) : False := by
  rw [← compare_eq_lt_iff] at before after
  rw [Std.OrientedCmp.gt_of_lt before] at after
  cases after

theorem append_left {a b : Location} (before : a.Precedes b) (l : Location) : (l ++ a).Precedes (l ++ b) := by
  rw [← compare_eq_lt_iff, compare_append_left]
  exact compare_eq_lt_iff.2 before

theorem inside (l : Location) (n : Name) (more : Location) : l.Precedes (l ++ n :: more) := by
  have empty : Location.Precedes [] (n :: more) := List.Lex.nil
  simpa using empty.append_left l

/-- What lies below one name of a directory comes before what lies below a later one. -/
theorem apart {n m : Name} (less : n.bytes < m.bytes) (l more more' : Location) :
    (l ++ n :: more).Precedes (l ++ m :: more') := by
  have first : Location.Precedes (n :: more) (m :: more') := List.Lex.rel less
  exact first.append_left l

end Location.Precedes

/-! ## A walk that goes down first -/

/-- What each directory is found to hold, in whatever order. -/
structure Layout.Lists (t : Layout) (listing : Location → List Name) : Prop where
  complete : ∀ l n, n ∈ listing l ↔ (t.node? (l ++ [n])).isSome
  distinct : ∀ l, (listing l).Nodup

/-- The most names that lead to anything. -/
def Layout.height (t : Layout) : Nat := (t.nodes.keys.map List.length).max?.getD 0

theorem Layout.length_le_height {t : Layout} {l : Location} (there : (t.node? l).isSome) : l.length ≤ t.height := by
  by_cases top : l = []
  · simp [top]
  · have listed : l ∈ t.nodes.keys := by
      rw [Std.ExtTreeMap.mem_keys, Std.ExtTreeMap.mem_iff_isSome_getElem?]
      simpa [node?, top] using there
    have member : l.length ∈ t.nodes.keys.map List.length := List.mem_map_of_mem listed
    unfold height
    cases most : (t.nodes.keys.map List.length).max? with
    | none => simp [List.max?_eq_none_iff.1 most] at member
    | some h => exact (List.max?_eq_some_iff.1 most).2 _ member

def sortNames (names : List Name) : List Name := names.mergeSort fun n m => (compare n m).isLE

theorem sortNames_pairwise {names : List Name} (distinct : names.Nodup) :
    (sortNames names).Pairwise fun n m => n.bytes < m.bytes := by
  have trans (a b c : Name) (ab : (compare a b).isLE) (bc : (compare b c).isLE) : (compare a c).isLE :=
    Std.TransCmp.isLE_trans ab bc
  have total (a b : Name) : (compare a b).isLE || (compare b a).isLE := by
    have swap : compare b a = (compare a b).swap := Std.OrientedCmp.eq_swap
    rw [swap]
    cases compare a b <;> rfl
  have sorted : (sortNames names).Pairwise fun n m => (compare n m).isLE := List.pairwise_mergeSort trans total names
  have apart : (sortNames names).Nodup := (List.mergeSort_perm names _).nodup_iff.2 distinct
  refine (sorted.and apart).imp ?_
  rintro n m ⟨le,ne⟩
  rw [← Name.compare_eq_lt_iff]
  cases order : compare n m with
  | lt => rfl
  | eq => exact absurd (Std.LawfulEqOrd.eq_of_compare order) ne
  | gt => simp [order] at le

namespace Root

section
variable (r : Root) (fs : FileSystem) (skip : SkipSet)

def visitAt? (rel : Location) : Option Visit := (fs.layout.node? (r.place rel)).bind (r.visitNode? fs skip rel)

/-- The visits from a place on, as many levels down as said: the place itself and then, if it is a directory to enter, what lies
below each of its names, these in the order of their bytes. -/
def descend (listing : Location → List Name) : (levels : Nat) → Location → List (Location × Visit)
  | 0, _ => []
  | levels + 1, rel =>
    (r.visitAt? fs skip rel).toList.map (rel,·)
      ++ if r.enters fs skip rel then
          (sortNames (listing (r.place rel))).flatMap fun n => descend listing levels (rel ++ [n])
        else []

end

variable {r : Root} {fs : FileSystem} {skip : SkipSet} {listing : Location → List Name}

theorem visitAt?_eq_some_iff {rel : Location} {v : Visit} :
    r.visitAt? fs skip rel = some v ↔ (fs.layout.node? (r.place rel)).isSome ∧ r.Calls fs skip rel v := by
  unfold visitAt?
  cases node : fs.layout.node? (r.place rel) with
  | none => simp
  | some n => simp [visitNode?_eq_some_iff node]

/-- Going down comes to all places that are near enough, if it enters each directory on the way. -/
theorem mem_descend (lists : fs.layout.Lists listing) {levels : Nat} {rel : Location} {e : Location × Visit} :
    e ∈ r.descend fs skip listing levels rel ↔ ∃ more, e.1 = rel ++ more ∧ more.length < levels ∧
      (∀ k < more.length, r.enters fs skip (rel ++ more.take k)) ∧ r.visitAt? fs skip e.1 = some e.2 := by
  obtain ⟨place,v⟩ := e
  induction levels generalizing rel with
  | zero => simp [descend]
  | succ levels ih =>
    rw [descend, List.mem_append]
    constructor
    · rintro (here | below)
      · obtain ⟨w,visited,same⟩ := List.mem_map.1 here
        obtain ⟨rfl,rfl⟩ := Prod.mk.inj same
        exact ⟨[],by simp,by simp,by simp,by simpa using visited⟩
      · by_cases entered : r.enters fs skip rel
        · rw [if_pos entered, List.mem_flatMap] at below
          obtain ⟨n,_,member⟩ := below
          obtain ⟨more,rfl,near,way,visited⟩ := ih.1 member
          refine ⟨n :: more,by simp,by simpa using near,?_,visited⟩
          intro k inside
          cases k with
          | zero => simpa using entered
          | succ k => simpa using way k (by simpa using inside)
        · simp [entered] at below
    · rintro ⟨more,rfl,near,way,visited⟩
      cases more with
      | nil => exact .inl (by simpa using visited)
      | cons n more =>
        have entered : r.enters fs skip rel := by simpa using way 0 (by simp)
        have listed : n ∈ sortNames (listing (r.place rel)) := by
          rw [sortNames, List.mem_mergeSort, lists.complete]
          cases more with
          | nil => simpa [place] using (visitAt?_eq_some_iff.1 visited).1
          | cons m more =>
            have next := (enters_iff.1 (way 1 (by simp))).1
            simpa [place] using Layout.isSome_of_isDirectory next
        right
        rw [if_pos entered, List.mem_flatMap]
        refine ⟨n,listed,ih.2 ⟨more,by simp,by simpa using near,?_,visited⟩⟩
        intro k inside
        simpa using way (k + 1) (by simpa using inside)

theorem exists_of_mem_descend (lists : fs.layout.Lists listing) {levels : Nat} {rel : Location} {e : Location × Visit}
    (member : e ∈ r.descend fs skip listing levels rel) : ∃ more, e.1 = rel ++ more := by
  obtain ⟨more,same,_⟩ := (mem_descend lists).1 member
  exact ⟨more,same⟩

theorem descend_pairwise (lists : fs.layout.Lists listing) (levels : Nat) (rel : Location) :
    (r.descend fs skip listing levels rel).Pairwise fun a b => a.1.Precedes b.1 := by
  induction levels generalizing rel with
  | zero => simp [descend]
  | succ levels ih =>
    rw [descend, List.pairwise_append]
    refine ⟨?_,?_,?_⟩
    · cases r.visitAt? fs skip rel <;> simp
    · by_cases entered : r.enters fs skip rel
      · rw [if_pos entered, List.pairwise_flatMap]
        refine ⟨fun n _ => ih (rel ++ [n]),(sortNames_pairwise (lists.distinct _)).imp ?_⟩
        intro n m less a first b second
        obtain ⟨more,same⟩ := exists_of_mem_descend lists first
        obtain ⟨more',same'⟩ := exists_of_mem_descend lists second
        rw [same, same', List.append_assoc, List.append_assoc]
        exact .apart less rel more more'
      · simp [entered]
    · intro a here b below
      obtain ⟨v,_,rfl⟩ := List.mem_map.1 here
      by_cases entered : r.enters fs skip rel
      · rw [if_pos entered, List.mem_flatMap] at below
        obtain ⟨n,_,member⟩ := below
        obtain ⟨more,same⟩ := exists_of_mem_descend lists member
        rw [same, List.append_assoc]
        exact .inside rel n more
      · simp [entered] at below

theorem itinerary_precedes (r : Root) (fs : FileSystem) (skip : SkipSet) :
    (r.itinerary fs skip).Pairwise fun a b => a.1.Precedes b.1 :=
  (r.itinerary_pairwise fs skip).imp Location.compare_eq_lt_iff.1

/-- A walk that can begin goes down first, through all levels that there are. -/
theorem descend_eq_itinerary (directory : fs.layout.isDirectory r.base)
    (begun : r.prunes skip [] ∨ fs.listingError? (r.path []) = none) (lists : fs.layout.Lists listing) :
    r.descend fs skip listing (fs.layout.height + 1) [] = r.itinerary fs skip := by
  have same (e : Location × Visit) :
      e ∈ r.descend fs skip listing (fs.layout.height + 1) [] ↔ e ∈ r.itinerary fs skip := by
    obtain ⟨rel,v⟩ := e
    rw [mem_descend lists, mem_itinerary_iff directory begun, meets_iff, reaches_iff]
    constructor
    · rintro ⟨more,rfl,_,way,visited⟩
      obtain ⟨there,calls⟩ := visitAt?_eq_some_iff.1 visited
      exact ⟨⟨fun k inside => way k inside,.inr there⟩,calls⟩
    · rintro ⟨⟨way,there⟩,calls⟩
      have present : (fs.layout.node? (r.place rel)).isSome := by
        rcases there with rfl | there
        · rw [place, List.append_nil]
          exact Layout.isSome_of_isDirectory directory
        · exact there
      have near := Layout.length_le_height present
      rw [place, List.length_append] at near
      exact ⟨rel,rfl,by omega,fun k inside => way k inside,visitAt?_eq_some_iff.2 ⟨present,calls⟩⟩
  have ascends : (r.descend fs skip listing (fs.layout.height + 1) []).Pairwise fun a b => a.1.Precedes b.1 :=
    descend_pairwise lists _ _
  have ascends' := r.itinerary_precedes fs skip
  refine List.Perm.eq_of_pairwise (fun a b _ _ before after => (before.asymm after).elim) ascends ascends' ?_
  rw [List.perm_ext_iff_of_nodup (ascends.imp fun before same => before.ne (congrArg Prod.fst same))
    (ascends'.imp fun before same => before.ne (congrArg Prod.fst same))]
  exact same

end Root

end ParamTidy

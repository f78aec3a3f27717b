import ParamTidy.Walk.Visit

/-!
# What a walk reaches

A walk reaches a place if it enters every directory from the root down to there. `Root.visits` are the visits to all these
places in the order of locations, read off the layout alone. That the rounds of a walk make these visits is shown in `Rounds`.
-/

namespace ParamTidy

namespace Root

variable (r : Root) (fs : FileSystem) (skip : SkipSet)

/-- Whether a directory is left alone for its name; that of a linked root does not count. -/
def prunes (rel : Location) : Bool := !(rel.isEmpty && r.linked) && skip.skipsDir (r.lastName rel)

def enters (rel : Location) : Bool :=
  fs.layout.isDirectory (r.place rel) && !r.prunes skip rel && (fs.listingError? (r.path rel)).isNone

/-- Whether a walk gets as far as a place: it enters every directory from the root down to there. -/
def reaches (rel : Location) : Bool := (List.range rel.length).all fun k => r.enters fs skip (rel.take k)

theorem reaches_iff {rel : Location} : r.reaches fs skip rel ↔ ∀ k < rel.length, r.enters fs skip (rel.take k) := by
  simp [reaches]

/-- A walk gets to what lies in a directory if it gets to the directory and enters it. -/
theorem reaches_append_singleton (rel : Location) (n : Name) :
    r.reaches fs skip (rel ++ [n]) = (r.reaches fs skip rel && r.enters fs skip rel) := by
  rw [Bool.eq_iff_iff, Bool.and_eq_true, reaches_iff, reaches_iff]
  constructor
  · intro all
    refine ⟨fun k hk => ?_,?_⟩
    · simpa [List.take_append_of_le_length (Nat.le_of_lt hk)] using all k (by simp; omega)
    · simpa using all rel.length (by simp)
  · rintro ⟨before,last⟩ k hk
    simp only [List.length_append, List.length_singleton] at hk
    rcases Nat.lt_or_eq_of_le (Nat.le_of_lt_succ hk) with lt | rfl
    · simpa [List.take_append_of_le_length (Nat.le_of_lt lt)] using before k lt
    · simpa using last

def below : List (Location × Node) :=
  fs.layout.nodes.toList.filterMap fun (l,n) =>
    if r.base.isPrefixOf l && l != r.base then some (l.drop r.base.length,n) else none

theorem below_eq : r.below fs = fs.layout.nodes.toList.filterMap fun e =>
    if r.base.isPrefixOf e.1 && e.1 != r.base then some (e.1.drop r.base.length,e.2) else none := rfl

/-- A location below the root by its names from there on. -/
theorem eq_append_of_below {base l rel : Location} {n n' : Node}
    (h : (if base.isPrefixOf l && l != base then some (l.drop base.length,n) else none) = some (rel,n')) :
    rel ≠ [] ∧ l = base ++ rel ∧ n = n' := by
  split at h
  · next below =>
    rw [Bool.and_eq_true, List.isPrefixOf_iff_prefix, bne_iff_ne] at below
    obtain ⟨⟨names,rfl⟩,other⟩ := below
    simp only [List.drop_left, Option.some.injEq, Prod.mk.injEq] at h
    obtain ⟨rfl,rfl⟩ := h
    exact ⟨fun none => other (by simp [none]),rfl,rfl⟩
  · cases h

theorem mem_below {rel : Location} {n : Node} :
    (rel,n) ∈ r.below fs ↔ rel ≠ [] ∧ fs.layout.node? (r.place rel) = some n := by
  rw [below_eq, List.mem_filterMap]
  constructor
  · rintro ⟨⟨l,n'⟩,mem,h⟩
    obtain ⟨ne,rfl,rfl⟩ := eq_append_of_below h
    have there := Std.ExtTreeMap.mem_toList_iff_getElem?_eq_some.1 mem
    exact ⟨ne,by simp [Layout.node?, place, ne, there]⟩
  · rintro ⟨ne,h⟩
    have there : fs.layout.nodes[r.base ++ rel]? = some n := by simpa [Layout.node?, place, ne] using h
    refine ⟨(r.base ++ rel,n),Std.ExtTreeMap.mem_toList_iff_getElem?_eq_some.2 there,?_⟩
    simp [List.isPrefixOf_iff_prefix, ne]

theorem pairwise_below :
    (r.below fs).Pairwise fun a b => compare (r.place a.1) (r.place b.1) = .lt := by
  rw [below_eq]
  refine List.Pairwise.filterMap _ ?_ Std.ExtTreeMap.ordered_keys_toList
  rintro ⟨l,n⟩ ⟨l',n'⟩ lt ⟨a,m⟩ ha ⟨b,m'⟩ hb
  obtain ⟨_,rfl,_⟩ := eq_append_of_below ha
  obtain ⟨_,rfl,_⟩ := eq_append_of_below hb
  exact lt

def visitDirectory? (rel : Location) : Option Visit :=
  if r.prunes skip rel then some (.pruned (r.path rel))
  else (fs.listingError? (r.path rel)).map (.unlistable (r.path rel))

def visitNode? (rel : Location) : Node → Option Visit
  | .directory _ => r.visitDirectory? fs skip rel
  | .file _ => r.visitFile? skip rel
  | .link _ => if fs.leadsToFile (r.path rel) then r.visitFile? skip rel else none

/-- The visit to what lies some names below the root, if the walk gets there and there is anything to tell. -/
def visit? (rel : Location) (n : Node) : Option Visit :=
  if r.reaches fs skip rel then r.visitNode? fs skip rel n else none

/-- The visits to all the places that a walk reaches, in order. -/
def visits : List Visit :=
  (if r.prunes skip [] then [.pruned (r.path [])] else []) ++ (r.below fs).filterMap fun e => r.visit? fs skip e.1 e.2

end Root

end ParamTidy

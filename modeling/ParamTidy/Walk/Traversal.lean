import ParamTidy.Path.Spelling
import ParamTidy.Walk.Visit

/-!
# Traversals

How what lies below a root is handed out, one thing after the other: a directory before what it holds, and this in the order of
the names. A directory is listed when it is handed out, and one that cannot be listed has the refusal to hand out in place of
its names.
-/

namespace ParamTidy

/-- What a traversal hands out: the root or something that a directory holds, or why a directory cannot be listed, with the
number of directories that were open when it was tried. -/
inductive Item where
  | entry (rel : Location) (kind : Kind)
  | refusal (rel : Location) (error : SystemError) (depth : Nat)
  deriving DecidableEq

/-- A traversal under way. It stands before its root, or has directories open; of each is kept what it has still to hand out,
the innermost first. -/
inductive Traversal where
  | ready
  | inside (opened : List (List Item))

def Root.kind (r : Root) : Kind := if r.linked then .link else .directory

def Root.items (r : Root) (fs : FileSystem) (depth : Nat) (rel : Location) : List Item :=
  match fs.list (r.path rel) with
  | .error e => [.refusal rel e depth]
  | .ok held => held.toList.map fun (n,kind) => .entry (rel ++ [n]) kind

namespace Traversal

/-- Takes one item out of the open directories; those that have nothing left are closed. -/
def handOut : List (List Item) → Option (Item × List (List Item))
  | [] => none
  | [] :: outer => handOut outer
  | (item :: items) :: outer => some (item,items :: outer)

/-- The next item, and the traversal after it. A directory is opened as it is handed out, and so is a root that is a link to
one. -/
def next (r : Root) (fs : FileSystem) : Traversal → Option (Item × Traversal)
  | .ready => some (.entry [] r.kind,.inside [r.items fs 0 []])
  | .inside opened =>
    match handOut opened with
    | none => none
    | some (.entry rel .directory,rest) => some (.entry rel .directory,.inside (r.items fs rest.length rel :: rest))
    | some (item,rest) => some (item,.inside rest)

/-- Closes the innermost directory, whatever it has still to hand out. -/
def leave : Traversal → Traversal
  | .ready => .ready
  | .inside opened => .inside opened.tail

end Traversal

/-! ## How much is still to come -/

theorem Root.length_path_lt (r : Root) (rel : Location) (n : Name) :
    (r.path rel).bytes.length < (r.path (rel ++ [n])).bytes.length := by
  have some_byte : 0 < n.bytes.length := List.length_pos_iff.2 n.bytes_ne.1
  have longer (l : Location) : (spell l).length < (spell (l ++ [n])).length := by
    induction l with
    | nil => simpa using some_byte
    | cons m l ih =>
      cases l with
      | nil => simp [spell_cons_cons]
      | cons m' l =>
        rw [List.cons_append] at ih ⊢
        rw [List.cons_append, spell_cons_cons, spell_cons_cons]
        simp only [List.length_append, List.length_cons]
        omega
  simpa [path, Location.path] using longer (r.names ++ rel)

theorem FileSystem.length_lt_of_resolve {fs : FileSystem} {p : Path} {l : Location} (leads : fs.resolve p = .ok l) :
    p.bytes.length < pathLimit := by
  unfold resolve find destination at leads
  split at leads
  · cases leads
  split at leads
  · cases leads
  split at leads
  · cases leads
  · omega

theorem Layout.length_held_le (t : Layout) (l : Location) : (t.held l).toList.length ≤ t.nodes.size := by
  rw [Std.ExtTreeMap.length_toList, ← Std.ExtTreeMap.length_toList (t := t.nodes)]
  exact Nat.le_trans Std.ExtTreeMap.size_ofList_le (List.length_filterMap_le _ _)

theorem Traversal.flatten_of_handOut {opened rest : List (List Item)} {item : Item}
    (given : handOut opened = some (item,rest)) : opened.flatten = item :: rest.flatten := by
  induction opened with
  | nil => cases given
  | cons items outer ih =>
    cases items with
    | nil => exact ih given
    | cons i items =>
      cases given
      rfl

namespace Item

/-- A bound on what is still to come of an item: no directory holds more than the disk does, and what lies deeper has a longer
path, until paths are too long for anything to be listed. -/
def weight (r : Root) (t : Layout) : Item → Nat
  | entry rel _ => Nat.pow (t.nodes.size + 2) (pathLimit - (r.path rel).bytes.length + 1)
  | refusal _ _ _ => 1

def weights (r : Root) (t : Layout) (items : List Item) : Nat := items.foldr (fun item rest => item.weight r t + rest) 0

variable {r : Root} {t : Layout}

@[simp] theorem weights_cons (item : Item) (items : List Item) :
    weights r t (item :: items) = item.weight r t + weights r t items := rfl

@[simp] theorem weights_append (items more : List Item) :
    weights r t (items ++ more) = weights r t items + weights r t more := by
  induction items with
  | nil => exact (Nat.zero_add _).symm
  | cons item items ih => rw [List.cons_append, weights_cons, weights_cons, ih, Nat.add_assoc]

theorem weights_le {items : List Item} {bound : Nat} (each : ∀ item ∈ items, item.weight r t ≤ bound) :
    weights r t items ≤ items.length * bound := by
  induction items with
  | nil => exact Nat.zero_le _
  | cons item items ih =>
    have first := each item List.mem_cons_self
    have rest := ih fun other member => each other (List.mem_cons_of_mem _ member)
    rw [weights_cons, List.length_cons, Nat.succ_mul]
    omega

theorem weight_pos (item : Item) : 0 < item.weight r t := by
  cases item with
  | entry rel kind => exact Nat.pow_pos (Nat.succ_pos _)
  | refusal rel e depth => exact Nat.one_pos

end Item

def Traversal.weight (r : Root) (t : Layout) : Traversal → Nat
  | ready => (Item.entry [] r.kind).weight r t
  | inside opened => Item.weights r t opened.flatten

/-- What a directory has to hand out is less than the directory itself. -/
theorem Root.weight_items (r : Root) (fs : FileSystem) (depth : Nat) (rel : Location) (kind : Kind) :
    Item.weights r fs.layout (r.items fs depth rel) < (Item.entry rel kind).weight r fs.layout := by
  unfold items
  split
  · exact Nat.one_lt_pow (Nat.succ_ne_zero _) (by omega)
  · next held listed =>
    obtain ⟨l,leads,rfl⟩ := fs.list_eq_ok listed
    have short := FileSystem.length_lt_of_resolve leads
    have few := fs.layout.length_held_le l
    let deeper := Nat.pow (fs.layout.nodes.size + 2) (pathLimit - (r.path rel).bytes.length)
    have each : ∀ item ∈ (fs.layout.held l).toList.map fun (n,kind) => Item.entry (rel ++ [n]) kind,
        item.weight r fs.layout ≤ deeper := by
      intro item member
      obtain ⟨x,_,rfl⟩ := List.mem_map.1 member
      have longer := r.length_path_lt rel x.1
      exact Nat.pow_le_pow_right (by omega) (by omega)
    have whole : 0 < deeper := Nat.pow_pos (Nat.succ_pos _)
    calc Item.weights r fs.layout ((fs.layout.held l).toList.map fun (n,kind) => .entry (rel ++ [n]) kind)
      _ ≤ (fs.layout.held l).toList.length * deeper := by simpa using Item.weights_le each
      _ ≤ fs.layout.nodes.size * deeper := Nat.mul_le_mul_right deeper few
      _ < (fs.layout.nodes.size + 2) * deeper := Nat.mul_lt_mul_of_pos_right (by omega) whole
      _ = (Item.entry rel kind).weight r fs.layout := Nat.pow_succ'.symm

namespace Traversal

variable {r : Root} {fs : FileSystem} {t rest : Traversal}

theorem weight_next {item : Item} (given : t.next r fs = some (item,rest)) :
    rest.weight r fs.layout < t.weight r fs.layout := by
  cases t with
  | ready =>
    cases given
    simpa [weight] using r.weight_items fs 0 [] r.kind
  | inside opened =>
    simp only [next] at given
    split at given
    · cases given
    · next rel outer taken =>
      cases given
      have less := r.weight_items fs outer.length rel .directory
      rw [weight, weight, flatten_of_handOut taken, List.flatten_cons, Item.weights_append, Item.weights_cons]
      omega
    · next item' outer _ taken =>
      cases given
      have some_weight := item.weight_pos (r := r) (t := fs.layout)
      rw [weight, weight, flatten_of_handOut taken, Item.weights_cons]
      omega

theorem weight_leave (r : Root) (layout : Layout) (t : Traversal) : t.leave.weight r layout ≤ t.weight r layout := by
  cases t with
  | ready => exact Nat.le_refl _
  | inside opened =>
    cases opened with
    | nil => exact Nat.le_refl _
    | cons items outer => simp [leave, weight]

end Traversal

end ParamTidy

import ParamTidy.Proofs.Descent
import ParamTidy.Walk.Traversal

/-!
# What a traversal hands out

A directory is found to hold what lies in it (`Layout.mem_held`), each name once. What is still to be visited when an item is
about to be handed out (`Item.visits`) is for a directory what its own items leave to visit (`Root.flatMap_items`), unless it
is left alone, so a traversal goes down first.
-/

namespace ParamTidy

/-! ## What a directory holds -/

namespace Layout

theorem getElem?_held (t : Layout) (l : Location) (n : Name) : (t.held l)[n]? = (t.node? (l ++ [n])).map Node.kind := by
  have lies_in {x : Location} {node : Node} {e : Name × Kind}
      (taken : (if x.dropLast = l then x.getLast?.map (·,node.kind) else none) = some e) :
      x = l ++ [e.1] ∧ e.2 = node.kind := by
    split at taken
    · next inside =>
      obtain ⟨m,last,rfl⟩ := Option.map_eq_some_iff.1 taken
      obtain ⟨l',rfl⟩ := List.getLast?_eq_some_iff.1 last
      rw [← inside, List.dropLast_concat]
      exact ⟨rfl,rfl⟩
    · cases taken
  have below : l ++ [n] ≠ [] := by simp
  rw [held, node?, if_neg below]
  cases there : t.nodes[l ++ [n]]? with
  | some node =>
    have listed := Std.ExtTreeMap.mem_toList_iff_getElem?_eq_some.2 there
    refine Std.ExtTreeMap.getElem?_ofList_of_mem Std.ReflCmp.compare_self ?_ (List.mem_filterMap.2 ⟨_,listed,by simp⟩)
    refine Std.ExtTreeMap.distinct_keys_toList.filterMap _ ?_
    rintro ⟨x,node⟩ ⟨y,node'⟩ distinct e taken e' taken' same
    refine distinct ?_
    rw [(lies_in taken).1, (lies_in taken').1, Std.LawfulEqOrd.eq_of_compare same]
    exact Std.ReflCmp.compare_self
  | none =>
    refine Std.ExtTreeMap.getElem?_ofList_of_contains_eq_false ?_
    rw [Bool.eq_false_iff, ne_eq, List.contains_iff_mem]
    intro member
    obtain ⟨e,taken,rfl⟩ := List.mem_map.1 member
    obtain ⟨⟨x,node⟩,listed,taken⟩ := List.mem_filterMap.1 taken
    obtain ⟨rfl,_⟩ := lies_in taken
    rw [Std.ExtTreeMap.mem_toList_iff_getElem?_eq_some, there] at listed
    cases listed

theorem mem_held {t : Layout} {l : Location} {n : Name} {kind : Kind} :
    (n,kind) ∈ (t.held l).toList ↔ (t.node? (l ++ [n])).map Node.kind = some kind := by
  rw [Std.ExtTreeMap.mem_toList_iff_getElem?_eq_some, getElem?_held]

theorem isDirectory_of_kind {t : Layout} {l : Location} (there : (t.node? l).map Node.kind = some .directory) :
    t.isDirectory l := by
  obtain ⟨node,here,kind⟩ := Option.map_eq_some_iff.1 there
  cases node with
  | directory access => exact isDirectory_iff.2 ⟨access,here⟩
  | _ => cases kind

theorem lists_held (t : Layout) : t.Lists fun l => (t.held l).keys where
  complete := by
    intro l n
    rw [Std.ExtTreeMap.mem_keys, Std.ExtTreeMap.mem_iff_isSome_getElem?, getElem?_held, Option.isSome_map]
  distinct := fun _ => Std.ExtTreeMap.nodup_keys

theorem sortNames_keys_held (t : Layout) (l : Location) : sortNames (t.held l).keys = (t.held l).toList.map Prod.fst := by
  rw [Std.ExtTreeMap.map_fst_toList_eq_keys]
  refine List.mergeSort_of_pairwise (Std.ExtTreeMap.ordered_keys.imp fun lt => ?_)
  rw [lt]
  rfl

end Layout

theorem FileSystem.list_of_refused {fs : FileSystem} {p : Path} {e : SystemError} (refused : fs.listingError? p = some e) :
    fs.list p = .error e := by rw [list, refused]

/-- A directory that is met and entered is found to hold what lies at its place. -/
theorem Root.list_of_enters {fs : FileSystem} {skip : SkipSet} {p : Path} {r : Root} (found : fs.findRoot p = .ok r)
    {rel : Location} (met : r.Meets fs skip rel) (entered : r.enters fs skip rel) :
    fs.list (r.path rel) = .ok (fs.layout.held (r.place rel)) := by
  obtain ⟨directory,_,listable⟩ := enters_iff.1 entered
  cases leads : fs.resolve (r.path rel) with
  | error e => simp [FileSystem.listingError?, leads] at listable
  | ok l =>
    obtain rfl := resolve_eq_place_of_isDirectory found (meets_iff.1 met).1 directory leads
    rw [FileSystem.list, listable, leads]
    rfl

/-! ## What an item leaves to visit -/

/-- The visits that are left when an item is about to be handed out. -/
def Item.visits (r : Root) (fs : FileSystem) (skip : SkipSet) : Item → List Visit
  | entry rel _ =>
    (r.descend fs skip (fun l => (fs.layout.held l).keys) (fs.layout.height + 1 - rel.length) rel).map Prod.snd
  | refusal rel e _ => [.unlistable (r.path rel) e]

/-- The visits that a traversal leaves to make. -/
def Traversal.visits (r : Root) (fs : FileSystem) (skip : SkipSet) : Traversal → List Visit
  | ready => r.visits fs skip
  | inside opened => opened.flatten.flatMap (Item.visits r fs skip)

/-- An item that a walk past its root can come to. -/
inductive Item.Fits (r : Root) (fs : FileSystem) (skip : SkipSet) : Item → Prop
  | entry {rel : Location} {kind : Kind} (below : rel ≠ []) (met : r.Meets fs skip rel)
      (there : (fs.layout.node? (r.place rel)).map Node.kind = some kind) : Fits r fs skip (.entry rel kind)
  | refusal {rel : Location} {e : SystemError} {depth : Nat} (inner : depth ≠ 0) : Fits r fs skip (.refusal rel e depth)

section
variable {r : Root} {fs : FileSystem} {skip : SkipSet} {rel : Location} {kind : Kind}

theorem Item.visits_entry (there : (fs.layout.node? (r.place rel)).isSome) :
    (Item.entry rel kind).visits r fs skip = (r.visitAt? fs skip rel).toList
      ++ if r.enters fs skip rel then
          (fs.layout.held (r.place rel)).toList.flatMap fun e => (Item.entry (rel ++ [e.1]) e.2).visits r fs skip
        else [] := by
  have near := Layout.length_le_height there
  have levels : fs.layout.height + 1 - rel.length = (fs.layout.height - rel.length) + 1 := by
    rw [Root.place, List.length_append] at near
    omega
  have deeper (n : Name) : fs.layout.height + 1 - (rel ++ [n]).length = fs.layout.height - rel.length := by
    rw [List.length_append, List.length_singleton]
    omega
  rw [visits, levels, Root.descend, List.map_append, List.map_map]
  congr 1
  · exact List.map_id _
  · split
    · rw [Layout.sortNames_keys_held, List.flatMap_map, List.map_flatMap]
      simp only [visits, deeper]
    · rfl

theorem Item.visits_of_leavesAlone (directory : fs.layout.isDirectory (r.place rel)) (left : r.LeavesAlone skip rel) :
    (Item.entry rel kind).visits r fs skip = [.pruned (r.path rel)] := by
  have stays : ¬ r.enters fs skip rel := fun entered => (Root.enters_iff.1 entered).2.1 left
  have visited : r.visitAt? fs skip rel = some (.pruned (r.path rel)) :=
    Root.visitAt?_eq_some_iff.2 ⟨Layout.isSome_of_isDirectory directory,.pruned directory left⟩
  rw [visits_entry (Layout.isSome_of_isDirectory directory), visited, if_neg stays]
  rfl

/-- A directory that is not left alone leaves to visit what it has to hand out. -/
theorem Root.flatMap_items {p : Path} (found : fs.findRoot p = .ok r) (met : r.Meets fs skip rel)
    (directory : fs.layout.isDirectory (r.place rel)) (kept : ¬ r.LeavesAlone skip rel) (depth : Nat) :
    (r.items fs depth rel).flatMap (Item.visits r fs skip) = (Item.entry rel kind).visits r fs skip := by
  rw [Item.visits_entry (Layout.isSome_of_isDirectory directory)]
  cases refused : fs.listingError? (r.path rel) with
  | some e =>
    have stays : ¬ r.enters fs skip rel := fun entered => by
      rw [(enters_iff.1 entered).2.2] at refused
      cases refused
    have visited : r.visitAt? fs skip rel = some (.unlistable (r.path rel) e) :=
      visitAt?_eq_some_iff.2 ⟨Layout.isSome_of_isDirectory directory,.unlistable directory kept refused⟩
    rw [items, FileSystem.list_of_refused refused, visited, if_neg stays]
    rfl
  | none =>
    have entered : r.enters fs skip rel := enters_iff.2 ⟨directory,kept,refused⟩
    have silent : r.visitAt? fs skip rel = none := by
      rw [Option.eq_none_iff_forall_ne_some]
      intro v visited
      cases (visitAt?_eq_some_iff.1 visited).2 with
      | pruned _ left => exact kept left
      | unlistable _ _ refused' =>
        rw [refused] at refused'
        cases refused'
      | excluded source _ => exact Root.not_isSource_of_isDirectory directory source
      | candidate source _ => exact Root.not_isSource_of_isDirectory directory source
    rw [items, list_of_enters found met entered, silent, if_pos entered, List.flatMap_map]
    rfl

/-- What a directory has to hand out a walk past its root can come to, unless it is the root's own refusal. -/
theorem Root.fits_items {p : Path} (found : fs.findRoot p = .ok r) (met : r.Meets fs skip rel)
    (directory : fs.layout.isDirectory (r.place rel)) (kept : ¬ r.LeavesAlone skip rel) {depth : Nat}
    (contained : depth ≠ 0 ∨ fs.listingError? (r.path rel) = none) {item : Item} (listed : item ∈ r.items fs depth rel) :
    item.Fits r fs skip := by
  cases refused : fs.listingError? (r.path rel) with
  | some e =>
    rw [items, FileSystem.list_of_refused refused, List.mem_singleton] at listed
    subst listed
    exact .refusal (contained.resolve_right (by simp [refused]))
  | none =>
    have entered : r.enters fs skip rel := enters_iff.2 ⟨directory,kept,refused⟩
    rw [items, list_of_enters found met entered] at listed
    obtain ⟨⟨n,kind⟩,holds,rfl⟩ := List.mem_map.1 listed
    rw [Layout.mem_held] at holds
    have there : (fs.layout.node? (r.place (rel ++ [n]))).map Node.kind = some kind := by
      rwa [place, ← List.append_assoc]
    refine .entry (by simp) (.inside met directory refused (fun counts named => kept ⟨counts,named⟩) ?_) there
    rw [← Option.isSome_map (f := Node.kind), there]
    rfl

theorem Item.visits_of_file (there : (fs.layout.node? (r.place rel)).map Node.kind = some .file) :
    (Item.entry rel kind).visits r fs skip = (r.visitFile? skip rel).toList := by
  obtain ⟨node,here,file⟩ := Option.map_eq_some_iff.1 there
  cases node with
  | file access =>
    have stays : ¬ r.enters fs skip rel := by simp [Root.enters, Layout.isDirectory, here]
    have visited : r.visitAt? fs skip rel = r.visitFile? skip rel := by simp [Root.visitAt?, here, Root.visitNode?]
    rw [visits_entry (by simp [here]), visited, if_neg stays, List.append_nil]
  | _ => cases file

theorem Item.visits_of_link (there : (fs.layout.node? (r.place rel)).map Node.kind = some .link) :
    (Item.entry rel kind).visits r fs skip =
      (if fs.leadsToFile (r.path rel) then r.visitFile? skip rel else none).toList := by
  obtain ⟨node,here,link⟩ := Option.map_eq_some_iff.1 there
  cases node with
  | link target =>
    have stays : ¬ r.enters fs skip rel := by simp [Root.enters, Layout.isDirectory, here]
    have visited : r.visitAt? fs skip rel = if fs.leadsToFile (r.path rel) then r.visitFile? skip rel else none := by
      simp [Root.visitAt?, here, Root.visitNode?]
    rw [visits_entry (by simp [here]), visited, if_neg stays, List.append_nil]
  | _ => cases link

end

theorem Traversal.flatten_eq_nil_of_handOut {opened : List (List Item)} (given : handOut opened = none) :
    opened.flatten = [] := by
  induction opened with
  | nil => rfl
  | cons items outer ih =>
    cases items with
    | nil => exact ih given
    | cons item items => cases given

theorem Traversal.ne_nil_of_handOut {opened rest : List (List Item)} {item : Item}
    (given : handOut opened = some (item,rest)) : rest ≠ [] := by
  induction opened with
  | nil => cases given
  | cons items outer ih =>
    cases items with
    | nil => exact ih given
    | cons i items =>
      cases given
      exact List.cons_ne_nil _ _

end ParamTidy

import ParamTidy.FileSystem.Edit
import ParamTidy.Proofs.Resolution

/-!
# What is looked up on the way of a path

`Layout.LooksUp` says which segments are looked up in which directories when moves are followed through links. Where a path
leads hangs on no more than that: another layout in which the same can be looked up leads the same way (`arrive_congr`). Below
the root of a walk the directories down to a place are looked into, and what a link there leads through (`LooksUp.names`).
-/

namespace ParamTidy

/-- A node without its permissions. -/
def Node.bare : Node → Node
  | .directory _ => .directory .full
  | .file _ => .file .full
  | .link target => .link target

namespace Layout

/-- What lies at a location, whatever its permissions. -/
def bare? (t : Layout) (l : Location) : Option Node := (t.node? l).map Node.bare

/-- On the way of moves from a location, with as many links as allowed, the segment `s` is looked up at `x`. -/
inductive LooksUp (t : Layout) (x : Location) (s : Segment) : (links : Nat) → Location → List Move → Prop
  | here {links : Nat} {rest : List Move} : LooksUp t x s links x (.segment s :: rest)
  | demand {links : Nat} {l : Location} {rest : List Move} (directory : t.isDirectory l) (on : LooksUp t x s links l rest) :
      LooksUp t x s links l (.demandDirectory :: rest)
  | stay {links : Nat} {l : Location} {rest : List Move} (open_ : t.isSearchable l) (on : LooksUp t x s links l rest) :
      LooksUp t x s links l (.segment .here :: rest)
  | up {links : Nat} {l : Location} {rest : List Move} (open_ : t.isSearchable l)
      (on : LooksUp t x s links l.dropLast rest) : LooksUp t x s links l (.segment .up :: rest)
  | down {links : Nat} {l : Location} {n : Name} {rest : List Move} (open_ : t.isSearchable l)
      (short : n.bytes.length ≤ longestName) (there : (t.node? (l ++ [n])).isSome) (plain : ¬ t.isLink (l ++ [n]))
      (on : LooksUp t x s links (l ++ [n]) rest) : LooksUp t x s links l (.segment (.name n) :: rest)
  | through {links : Nat} {l : Location} {n : Name} {target : Path} {rest : List Move} (open_ : t.isSearchable l)
      (short : n.bytes.length ≤ longestName) (link : t.node? (l ++ [n]) = some (.link target))
      (on : LooksUp t x s links (if target.isAbsolute then [] else l) (target.moves ++ rest)) :
      LooksUp t x s (links + 1) l (.segment (.name n) :: rest)

/-! ## Nodes without their permissions -/

section
variable {t : Layout} {l : Location}

theorem bare?_isSome : (t.bare? l).isSome = (t.node? l).isSome := Option.isSome_map

theorem isFile_iff_bare? : t.isFile l ↔ t.bare? l = some (.file .full) := by
  rw [isFile_iff, bare?]
  cases t.node? l with
  | none => simp
  | some n => cases n <;> simp [Node.bare]

theorem isDirectory_iff_bare? : t.isDirectory l ↔ t.bare? l = some (.directory .full) := by
  rw [isDirectory_iff, bare?]
  cases t.node? l with
  | none => simp
  | some n => cases n <;> simp [Node.bare]

theorem node?_eq_link_iff {target : Path} :
    t.node? l = some (.link target) ↔ t.bare? l = some (.link target) := by
  rw [bare?]
  cases t.node? l with
  | none => simp
  | some n => cases n <;> simp [Node.bare]

theorem isLink_iff_bare? : t.isLink l ↔ ∃ target, t.bare? l = some (.link target) := by
  simp only [isLink_iff, node?_eq_link_iff]

theorem isSearchable_iff : t.isSearchable l ↔ ∃ access, t.node? l = some (.directory access) ∧ access.search := by
  unfold isSearchable
  cases t.node? l with
  | none => simp
  | some n => cases n <;> simp

theorem not_isSearchable_of_isFile (file : t.isFile l) : t.isSearchable l = false := by
  obtain ⟨access,node⟩ := isFile_iff.1 file
  simp [isSearchable, node]

variable {t' : Layout} (same : t'.bare? l = t.bare? l)
include same

theorem isFile_congr : t'.isFile l = t.isFile l := by
  rw [Bool.eq_iff_iff, isFile_iff_bare?, isFile_iff_bare?, same]

theorem isDirectory_congr : t'.isDirectory l = t.isDirectory l := by
  rw [Bool.eq_iff_iff, isDirectory_iff_bare?, isDirectory_iff_bare?, same]

theorem isLink_congr : t'.isLink l = t.isLink l := by
  rw [Bool.eq_iff_iff, isLink_iff_bare?, isLink_iff_bare?, same]

theorem isSome_congr : (t'.node? l).isSome = (t.node? l).isSome := by rw [← bare?_isSome, ← bare?_isSome, same]

end

/-! ## Following moves one by one -/

section
variable {t : Layout} {ending : Ending} {links : Nat} {l : Location} {rest : List Move}

theorem arrive_nil : t.arrive ending links l [] = .ok (.found l) := by rw [arrive, travel]

theorem arrive_eq_of_travel_eq {l' : Location} {moves moves' : List Move}
    (same : t.travel ending l moves = t.travel ending l' moves') :
    t.arrive ending links l moves = t.arrive ending links l' moves' := by
  unfold arrive
  rw [same]

theorem arrive_demand : t.arrive ending links l (.demandDirectory :: rest) =
    if t.isDirectory l then t.arrive ending links l rest else .error .notDirectory := by
  by_cases directory : t.isDirectory l
  · rw [if_pos directory]
    exact arrive_eq_of_travel_eq (by simp [travel, directory])
  · rw [if_neg directory, arrive]
    simp [travel, directory]

theorem arrive_closed {s : Segment} (closed : t.isSearchable l = false) :
    t.arrive ending links l (.segment s :: rest) = .error
      (match t.bare? l with
      | some (.directory _) => .accessDenied
      | some _ => .notDirectory
      | none => .notFound) := by
  unfold isSearchable at closed
  rw [arrive, bare?]
  cases node : t.node? l with
  | none => simp [travel, node]
  | some n => cases n <;> simp_all [travel, Node.bare]

variable (open_ : t.isSearchable l)
include open_

theorem arrive_here : t.arrive ending links l (.segment .here :: rest) = t.arrive ending links l rest := by
  obtain ⟨access,node,search⟩ := isSearchable_iff.1 open_
  exact arrive_eq_of_travel_eq (by simp [travel, node, search])

theorem arrive_up : t.arrive ending links l (.segment .up :: rest) = t.arrive ending links l.dropLast rest := by
  obtain ⟨access,node,search⟩ := isSearchable_iff.1 open_
  exact arrive_eq_of_travel_eq (by simp [travel, node, search])

theorem arrive_name {n : Name} : t.arrive ending links l (.segment (.name n) :: rest) =
    if ending = .make ∧ rest = [.demandDirectory] then .error .isDirectory
    else if longestName < n.bytes.length then .error .nameTooLong
    else
      match t.bare? (l ++ [n]) with
      | none => if rest = [] then .ok (.vacant l n) else .error .notFound
      | some (.link target) =>
        if rest = [] ∧ ending = .keep then .ok (.found (l ++ [n]))
        else
          match links with
          | 0 => .error .tooManyLinks
          | links + 1 => t.arrive ending links (if target.isAbsolute then [] else l) (target.moves ++ rest)
      | some _ => t.arrive ending links (l ++ [n]) rest := by
  obtain ⟨access,node,search⟩ := isSearchable_iff.1 open_
  by_cases made : ending = .make ∧ rest = [.demandDirectory]
  · rw [if_pos made, arrive]
    simp [travel, node, search, made]
  · rw [if_neg made]
    by_cases long : longestName < n.bytes.length
    · rw [if_pos long, arrive]
      simp [travel, node, search, made, long]
    · rw [if_neg long, bare?]
      cases next : t.node? (l ++ [n]) with
      | none =>
        rw [arrive]
        by_cases last : rest = [] <;> simp [travel, node, search, made, long, next, last]
      | some found =>
        cases found with
        | directory access' => exact arrive_eq_of_travel_eq (by simp [travel, node, search, made, long, next])
        | file access' => exact arrive_eq_of_travel_eq (by simp [travel, node, search, made, long, next])
        | link target =>
          rw [arrive]
          by_cases kept : rest = [] ∧ ending = .keep
          · simp [travel, node, search, long, next, kept, Node.bare]
          · simp only [travel, node, search, made, long, next, kept, Node.bare, Option.map_some]
            cases links <;> rfl

theorem arrive_down {n : Name} (short : n.bytes.length ≤ longestName) (there : (t.node? (l ++ [n])).isSome)
    (plain : ¬ t.isLink (l ++ [n])) :
    t.arrive .follow links l (.segment (.name n) :: rest) = t.arrive .follow links (l ++ [n]) rest := by
  rw [arrive_name open_, if_neg (by simp), if_neg (Nat.not_lt.2 short)]
  rw [← bare?_isSome] at there
  rw [isLink_iff_bare?] at plain
  cases bare : t.bare? (l ++ [n]) with
  | none => simp [bare] at there
  | some node => cases node <;> simp_all

theorem arrive_through {n : Name} {target : Path} (short : n.bytes.length ≤ longestName)
    (link : t.node? (l ++ [n]) = some (.link target)) :
    t.arrive .follow (links + 1) l (.segment (.name n) :: rest) =
      t.arrive .follow links (if target.isAbsolute then [] else l) (target.moves ++ rest) := by
  rw [arrive_name open_, if_neg (by simp), if_neg (Nat.not_lt.2 short), node?_eq_link_iff.1 link]
  simp

end

/-! ## Layouts alike along a way -/

/-- Two layouts have the same nodes, permissions apart, at all places that moves can be followed to. -/
structure Alike (good : Location → Prop) (t t' : Layout) : Prop where
  top : good []
  up : ∀ l, good l → good l.dropLast
  bare : ∀ l, good l → t'.bare? l = t.bare? l

/-- What is looked up on the way of moves, at a place that is alike, can be looked up in the other layout as well, and a name
gives a place that is alike. -/
def GoesAlike (good : Location → Prop) (t t' : Layout) (links : Nat) (l : Location) (moves : List Move) : Prop :=
  ∀ x s, t.LooksUp x s links l moves → good x →
    t'.isSearchable x = t.isSearchable x ∧ ∀ n, s = .name n → good (x ++ [n])

theorem arrive_congr {good : Location → Prop} {t t' : Layout} (alike : Alike good t t') (ending : Ending) {links : Nat}
    {l : Location} {moves : List Move} (start : good l) (way : GoesAlike good t t' links l moves) :
    t'.arrive ending links l moves = t.arrive ending links l moves ∧
      ∀ found, t.arrive ending links l moves = .ok (.found found) → good found := by
  -- Links are followed with fewer links left; without one the rest of the moves is shorter.
  induction links using Nat.strongRecOn generalizing l moves with
  | ind links ihLinks =>
    induction moves generalizing l with
    | nil =>
      simp only [arrive_nil, Except.ok.injEq, Destination.found.injEq, true_and]
      rintro found rfl
      exact start
    | cons move rest ih =>
      cases move with
      | demandDirectory =>
        rw [arrive_demand, arrive_demand, isDirectory_congr (alike.bare l start)]
        by_cases directory : t.isDirectory l
        · rw [if_pos directory, if_pos directory]
          exact ih start fun x s looks => way x s (.demand directory looks)
        · simp [directory]
      | segment s =>
        obtain ⟨searchable,below⟩ := way l s .here start
        by_cases open_ : t.isSearchable l
        · have open' : t'.isSearchable l := searchable.trans open_
          cases s with
          | here =>
            rw [arrive_here open_, arrive_here open']
            exact ih start fun x s looks => way x s (.stay open_ looks)
          | up =>
            rw [arrive_up open_, arrive_up open']
            exact ih (alike.up l start) fun x s looks => way x s (.up open_ looks)
          | name n =>
            have next : good (l ++ [n]) := below n rfl
            rw [arrive_name open_, arrive_name open', alike.bare _ next]
            by_cases made : ending = .make ∧ rest = [.demandDirectory]
            · simp [made]
            by_cases long : longestName < n.bytes.length
            · simp [made, long]
            rw [if_neg made, if_neg long, if_neg made, if_neg long]
            have short : n.bytes.length ≤ longestName := Nat.not_lt.1 long
            cases bare : t.bare? (l ++ [n]) with
            | none => by_cases last : rest = [] <;> simp [last]
            | some node =>
              have there : (t.node? (l ++ [n])).isSome := by rw [← bare?_isSome, bare, Option.isSome_some]
              have on (plain : ¬ t.isLink (l ++ [n])) :=
                ih next fun x s looks => way x s (.down open_ short there plain looks)
              cases node with
              | directory access => exact on (by simp [isLink_iff_bare?, bare])
              | file access => exact on (by simp [isLink_iff_bare?, bare])
              | link target =>
                by_cases kept : rest = [] ∧ ending = .keep
                · simp only [kept, and_self, if_true, Except.ok.injEq, Destination.found.injEq, true_and]
                  rintro found rfl
                  exact next
                simp only [kept, if_false]
                cases links with
                | zero => simp
                | succ links =>
                  have from_ : good (if target.isAbsolute then [] else l) := by
                    split
                    · exact alike.top
                    · exact start
                  refine ihLinks links (Nat.lt_succ_self links) from_ fun x s looks => ?_
                  exact way x s (.through open_ short (node?_eq_link_iff.2 bare) looks)
        · have closed : t.isSearchable l = false := by simpa using open_
          rw [arrive_closed closed, arrive_closed (searchable.trans closed), alike.bare l start]
          simp

/-! ## What is looked up along moves in a row -/

section
variable {t : Layout} {x : Location} {s : Segment} {links : Nat} {l : Location}

theorem LooksUp.mono {more : Nat} {moves : List Move} (looks : t.LooksUp x s links l moves) (le : links ≤ more) :
    t.LooksUp x s more l moves := by
  induction looks generalizing more with
  | here => exact .here
  | demand directory _ ih => exact .demand directory (ih le)
  | stay open_ _ ih => exact .stay open_ (ih le)
  | up open_ _ ih => exact .up open_ (ih le)
  | down open_ short there plain _ ih => exact .down open_ short there plain (ih le)
  | through open_ short link _ ih =>
    obtain ⟨less,rfl⟩ : ∃ less, more = less + 1 := ⟨more - 1,by omega⟩
    exact .through open_ short link (ih (by omega))

/-- What is looked up along some moves is looked up along the first of them, or along the rest from where those lead. -/
theorem LooksUp.append {moves rest : List Move} (looks : t.LooksUp x s links l (moves ++ rest)) :
    t.LooksUp x s links l moves ∨ ∃ left found, left ≤ links ∧
      t.arrive .follow links l moves = .ok (.found found) ∧ t.LooksUp x s left found rest := by
  induction links using Nat.strongRecOn generalizing l moves with
  | ind links ihLinks =>
    induction moves generalizing l with
    | nil => exact .inr ⟨links,l,Nat.le_refl links,arrive_nil,looks⟩
    | cons move moves ih =>
      rw [List.cons_append] at looks
      cases looks with
      | here => exact .inl .here
      | demand directory on =>
        refine (ih on).imp (.demand directory) ?_
        rintro ⟨left,found,le,arrived,past⟩
        exact ⟨left,found,le,by rw [arrive_demand, if_pos directory, arrived],past⟩
      | stay open_ on =>
        refine (ih on).imp (.stay open_) ?_
        rintro ⟨left,found,le,arrived,past⟩
        exact ⟨left,found,le,by rw [arrive_here open_, arrived],past⟩
      | up open_ on =>
        refine (ih on).imp (.up open_) ?_
        rintro ⟨left,found,le,arrived,past⟩
        exact ⟨left,found,le,by rw [arrive_up open_, arrived],past⟩
      | down open_ short there plain on =>
        refine (ih on).imp (.down open_ short there plain) ?_
        rintro ⟨left,found,le,arrived,past⟩
        exact ⟨left,found,le,by rw [arrive_down open_ short there plain, arrived],past⟩
      | @through links _ _ target _ open_ short link on =>
        rw [← List.append_assoc] at on
        refine (ihLinks links (Nat.lt_succ_self links) on).imp (.through open_ short link) ?_
        rintro ⟨left,found,le,arrived,past⟩
        exact ⟨left,found,Nat.le_succ_of_le le,by rw [arrive_through open_ short link, arrived],past⟩

/-- Names that go through directories alone are looked up in these one after the other, and a link at their end is followed from
where it lies. -/
theorem LooksUp.names {rel : Location} (looks : t.LooksUp x s links l (rel.map fun n => .segment (.name n)))
    (way : ∀ k < rel.length, t.isDirectory (l ++ rel.take k)) :
    (∃ k < rel.length, x = l ++ rel.take k) ∨ ∃ directory n target, l ++ rel = directory ++ [n] ∧
      t.node? (l ++ rel) = some (.link target) ∧ t.LooksUp x s links directory [.segment (.name n)] := by
  induction rel generalizing l with
  | nil => cases looks
  | cons n rel ih =>
    rw [List.map_cons] at looks
    have here : l = l ++ (n :: rel).take 0 := by simp
    cases rel with
    | nil =>
      cases looks with
      | here => exact .inl ⟨0,by simp,here⟩
      | down open_ short there plain on => cases on
      | through open_ short link on => exact .inr ⟨l,n,_,rfl,link,.through open_ short link on⟩
    | cons m rel =>
      have entered : t.isDirectory (l ++ [n]) := by simpa using way 1 (by simp)
      cases looks with
      | here => exact .inl ⟨0,by simp,here⟩
      | down open_ short there plain on =>
        rcases ih on (fun k inside => by simpa using way (k + 1) (by simpa using inside)) with ⟨k,inside,rfl⟩ | past
        · exact .inl ⟨k + 1,by simpa using inside,by simp⟩
        · simpa using Or.inr past
      | through open_ short link on =>
        obtain ⟨access,node⟩ := isDirectory_iff.1 entered
        rw [node] at link
        cases link

theorem looksUp_moves_path {names : Location} :
    t.LooksUp x s links l names.path.moves ↔ t.LooksUp x s links l (names.map fun n => .segment (.name n)) := by
  by_cases top : names = []
  · subst top
    have moves : (Location.path []).moves = [.demandDirectory] := rfl
    rw [moves, List.map_nil]
    constructor
    · intro looks
      cases looks with
      | demand _ on => exact on
    · intro looks
      cases looks
  · rw [Location.moves_path top]

end

end Layout

/-- On the way of a path below the root of a walk, through directories alone, are looked up what is on the way of the root, the
names in those directories, and what is on the way of a link at its end. -/
theorem Root.looksUp_path {fs : FileSystem} {p : Path} {r : Root} (found : fs.findRoot p = .ok r) {rel x : Location}
    {s : Segment} (way : ∀ k < rel.length, fs.layout.isDirectory (r.place (rel.take k)))
    (looks : fs.layout.LooksUp x s linkLimit [] (r.path rel).moves) :
    fs.layout.LooksUp x s linkLimit [] r.names.path.moves ∨ (∃ k < rel.length, x = r.place (rel.take k)) ∨
      ∃ directory n target, r.place rel = directory ++ [n] ∧ fs.layout.node? (r.place rel) = some (.link target) ∧
        fs.layout.LooksUp x s linkLimit directory [.segment (.name n)] := by
  obtain ⟨_,base,_,_⟩ := FileSystem.findRoot_eq_ok_iff.1 found
  rw [path, Layout.looksUp_moves_path, List.map_append] at looks
  rw [Layout.looksUp_moves_path]
  rcases looks.append with looks | ⟨left,base',le,arrived,past⟩
  · exact .inl looks
  · rw [FileSystem.arrive_of_resolve_path base, Except.ok.injEq, Destination.found.injEq] at arrived
    subst arrived
    exact .inr ((past.mono le).names way)

end ParamTidy

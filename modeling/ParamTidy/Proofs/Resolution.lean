import ParamTidy.Path.Spelling
import ParamTidy.Walk.Visit

/-!
# Where paths below a root lead

Following moves is compositional (`travel_append`, `arrive_append`), so a path that goes on from the root of a walk through
directories alone leads to the place those names stand for (`Root.resolve_eq_place`), even when the root is reached through
links.
-/

namespace ParamTidy

namespace Layout

/-! ## Moves in a row -/

theorem travel_append (t : Layout) (l : Location) (moves rest : List Move) :
    t.travel .follow l (moves ++ rest) =
      match t.travel .follow l moves with
      | .ok (.arrived l') => t.travel .follow l' rest
      | .ok (.linked directory target more) => .ok (.linked directory target (more ++ rest))
      | .ok (.vacant directory n) => if rest = [] then .ok (.vacant directory n) else .error .notFound
      | .error e => .error e := by
  induction moves generalizing l with
  | nil => simp [travel]
  | cons move moves ih =>
    rw [List.cons_append]
    cases move with
    | demandDirectory =>
      by_cases directory : t.isDirectory l
      · simp only [travel, directory, if_true, ih]
      · simp [travel, directory]
    | segment s =>
      cases node : t.node? l with
      | none => simp [travel, node]
      | some node' =>
        cases node' with
        | file access => simp [travel, node]
        | link target => simp [travel, node]
        | directory access =>
          by_cases searchable : access.search
          · cases s with
            | here => simp [travel, node, searchable, ih]
            | up => simp [travel, node, searchable, ih]
            | name n =>
              by_cases long : longestName < n.bytes.length
              · simp [travel, node, searchable, long]
              · cases next : t.node? (l ++ [n]) with
                | none =>
                  by_cases last : moves = []
                  · simp [travel, node, searchable, long, next, last]
                  · simp [travel, node, searchable, long, next, last]
                | some node' => cases node' <;> simp [travel, node, searchable, long, next, ih]
          · simp [travel, node, searchable]

/-- What has been found along some moves is where all further moves go on from, with as many links as are left. -/
theorem arrive_append {t : Layout} {links : Nat} {l found : Location} {moves : List Move}
    (h : t.arrive .follow links l moves = .ok (.found found)) :
    ∃ left, ∀ rest, t.arrive .follow links l (moves ++ rest) = t.arrive .follow left found rest := by
  induction links generalizing l moves with
  | zero =>
    refine ⟨0,fun rest => ?_⟩
    unfold arrive at h ⊢
    rw [travel_append]
    cases stopped : t.travel .follow l moves with
    | error e => simp [stopped] at h
    | ok stop =>
      cases stop with
      | arrived l' =>
        simp only [stopped, Except.ok.injEq, Destination.found.injEq] at h
        rw [h]
      | vacant directory n => simp [stopped] at h
      | linked directory target more => simp [stopped] at h
  | succ links ih =>
    unfold arrive at h
    cases stopped : t.travel .follow l moves with
    | error e => simp [stopped] at h
    | ok stop =>
      cases stop with
      | arrived l' =>
        simp only [stopped, Except.ok.injEq, Destination.found.injEq] at h
        refine ⟨links + 1,fun rest => ?_⟩
        unfold arrive
        rw [travel_append, stopped, h]
      | vacant directory n => simp [stopped] at h
      | linked directory target more =>
        simp only [stopped] at h
        obtain ⟨left,go⟩ := ih h
        refine ⟨left,fun rest => ?_⟩
        rw [← go, List.append_assoc, arrive, travel_append, stopped]

/-- Names that go through directories, and not to a link, lead to the place they stand for or nowhere. -/
theorem travel_names {t : Layout} {l rel : Location} {stop : Stop}
    (way : ∀ k < rel.length, t.isDirectory (l ++ rel.take k)) (there : (t.node? (l ++ rel)).isSome)
    (plain : t.isLink (l ++ rel) = false)
    (h : t.travel .follow l (rel.map fun n => .segment (.name n)) = .ok stop) : stop = .arrived (l ++ rel) := by
  induction rel generalizing l with
  | nil => simpa [travel, eq_comm] using h
  | cons n rel ih =>
    have here : t.isDirectory l := by simpa using way 0 (by simp)
    cases node : t.node? l with
    | none => simp [isDirectory, node] at here
    | some node' =>
      cases node' with
      | file access => simp [isDirectory, node] at here
      | link target => simp [isDirectory, node] at here
      | directory access =>
        have plainNext : (t.node? (l ++ [n])).isSome ∧ t.isLink (l ++ [n]) = false := by
          cases rel with
          | nil => exact ⟨by simpa using there,by simpa using plain⟩
          | cons m rel =>
            have entered : t.isDirectory (l ++ [n]) := by simpa using way 1 (by simp)
            cases node' : t.node? (l ++ [n]) with
            | none => simp [isDirectory, node'] at entered
            | some found => cases found <;> simp_all [isDirectory, isLink]
        have next : t.travel .follow (l ++ [n]) (rel.map fun n => .segment (.name n)) = .ok stop := by
          by_cases searchable : access.search
          · by_cases long : longestName < n.bytes.length
            · simp [travel, node, searchable, long] at h
            · cases node' : t.node? (l ++ [n]) with
              | none => simp [node'] at plainNext
              | some found =>
                cases found with
                | link target => simp [isLink, node'] at plainNext
                | directory access' => simpa [travel, node, searchable, long, node'] using h
                | file access' => simpa [travel, node, searchable, long, node'] using h
          · simp [travel, node, searchable] at h
        have := ih (l := l ++ [n]) (fun k hk => ?_) (by simpa using there) (by simpa using plain) next
        · simpa using this
        · simpa using way (k + 1) (by simpa using hk)

end Layout

/-! ## The moves of a location's path -/

theorem Location.moves_path {l : Location} (ne : l ≠ []) : l.path.moves = l.map fun n => .segment (.name n) := by
  simp [Path.moves, asksDirectory_path ne]

namespace FileSystem

theorem arrive_of_resolve {fs : FileSystem} {p : Path} {l : Location} (absolute : p.isAbsolute)
    (h : fs.resolve p = .ok l) : fs.layout.arrive .follow linkLimit [] p.moves = .ok (.found l) := by
  unfold resolve find destination at h
  split at h
  · cases h
  split at h
  · cases h
  split at h
  · cases h
  obtain ⟨d,arrived,stands⟩ := bind_eq_ok_iff.1 h
  simp only [arrive, absolute, if_true] at arrived
  cases d with
  | found l' =>
    cases stands
    exact arrived
  | vacant directory n => cases stands
  | removed above gone => cases stands

/-- What the path of a location leads to is what its names lead to from the top. -/
theorem arrive_of_resolve_path {fs : FileSystem} {l found : Location} (h : fs.resolve l.path = .ok found) :
    fs.layout.arrive .follow linkLimit [] (l.map fun n => .segment (.name n)) = .ok (.found found) := by
  have arrived := arrive_of_resolve l.isAbsolute_path h
  by_cases top : l = []
  · subst top
    have moves : (Location.path []).moves = [.demandDirectory] := rfl
    rw [moves] at arrived
    simpa [Layout.arrive, Layout.travel, Layout.isDirectory, Layout.node?] using arrived
  · rwa [Location.moves_path top] at arrived

theorem findRoot_eq_ok_iff {fs : FileSystem} {p : Path} {r : Root} :
    fs.findRoot p = .ok r ↔ fs.locate p = .ok r.names ∧ fs.resolve r.names.path = .ok r.base ∧
      fs.layout.isDirectory r.base ∧ r.linked = fs.namesLink r.names.path := by
  obtain ⟨names,base,linked⟩ := r
  unfold findRoot
  constructor
  · intro found
    split at found
    · cases found
    · next names' located =>
      split at found
      · cases found
      · next base' leads =>
        split at found
        · next directory =>
          simp only [Except.ok.injEq, Root.mk.injEq] at found
          obtain ⟨rfl,rfl,rfl⟩ := found
          exact ⟨located,leads,directory,rfl⟩
        · cases found
  · rintro ⟨located,leads,directory,linked⟩
    simp only at located leads directory linked
    simp [located, leads, directory, linked]

end FileSystem

/-- A path below the root of a walk that goes through directories alone, and does not end at a link, leads to the place it
stands for if it leads anywhere. -/
theorem Root.resolve_eq_place {fs : FileSystem} {p : Path} {r : Root} (found : fs.findRoot p = .ok r) {rel l : Location}
    (way : ∀ k < rel.length, fs.layout.isDirectory (r.place (rel.take k))) (there : (fs.layout.node? (r.place rel)).isSome)
    (plain : fs.layout.isLink (r.place rel) = false) (leads : fs.resolve (r.path rel) = .ok l) : l = r.place rel := by
  obtain ⟨_,base,_,_⟩ := FileSystem.findRoot_eq_ok_iff.1 found
  obtain ⟨left,go⟩ := Layout.arrive_append (FileSystem.arrive_of_resolve_path base)
  have arrived := FileSystem.arrive_of_resolve_path leads
  rw [List.map_append, go] at arrived
  unfold Layout.arrive at arrived
  cases stopped : fs.layout.travel .follow r.base (rel.map fun n => .segment (.name n)) with
  | error e => simp [stopped] at arrived
  | ok stop =>
    rw [Layout.travel_names way there plain stopped] at stopped
    simp only [stopped, Except.ok.injEq, Destination.found.injEq] at arrived
    exact arrived.symm

end ParamTidy

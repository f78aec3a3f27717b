import ParamTidy.Proofs.Reading
import ParamTidy.Text.Utf8.RoundTrip

/-!
# What arguments leave as it is

`Grammar.TakesLong` lists what a long option can do. What no option among the arguments undoes, and no operand, holds at the
end of a reading if it held at its start (`Grammar.read_keeps`). So only `--check` makes a walk a check
(`WalkOptions.mem_of_check`), and the path of a single file is always text.
-/

namespace ParamTidy

/-- An option that leaves something true. -/
def Switch.Keeps {Choices : Type} (P : Choices → Prop) : Switch Choices → Prop
  | .flag _ give => ∀ c, P c → P (give c)
  | .valued add => ∀ c v c', P c → add c v = .ok c' → P c'
  | .halt _ => True

theorem exists_of_bind_eq_ok {α β ε : Type} {x : Except ε α} {f : α → Except ε β} {b : β} (done : x >>= f = .ok b) :
    ∃ a, x = .ok a ∧ f a = .ok b := by
  cases x with
  | error e => cases done
  | ok a => exact ⟨a,rfl,done⟩

theorem exists_of_map_eq_ok {α β ε : Type} {x : Except ε α} {f : α → β} {b : β} (done : x.map f = .ok b) :
    ∃ a, x = .ok a ∧ f a = b := by
  cases x with
  | error e => cases done
  | ok a =>
    cases done
    exact ⟨a,rfl,rfl⟩

theorem foldlM_keeps {α β ε : Type} {P : α → Prop} {step : α → β → Except ε α}
    (each : ∀ a b a', P a → step a b = .ok a' → P a') (bs : List β) {a a' : α} (start : P a)
    (ended : bs.foldlM step a = .ok a') : P a' := by
  induction bs generalizing a with
  | nil =>
    cases ended
    exact start
  | cons b bs ih =>
    rw [List.foldlM_cons] at ended
    obtain ⟨next,done,rest⟩ := exists_of_bind_eq_ok ended
    exact ih (each a b next start done) rest

namespace Grammar

variable {Choices : Type} {g : Grammar Choices} {P : Choices → Prop}

theorem orUsage_eq_ok_iff {α : Type} {x : Except UsageError α} {a : α} : orUsage x = .ok a ↔ x = .ok a := by
  cases x with
  | error e => constructor <;> exact fun told => by cases told
  | ok a' =>
    have same : orUsage (.ok a') = .ok a' := rfl
    rw [same, Except.ok.injEq, Except.ok.injEq]

theorem applyFlag_eq_ok_iff {switch : Switch Choices} {c c' : Choices} {name : String} :
    applyFlag c name switch = .ok c' ↔ ∃ given give, switch = .flag given give ∧ given c = false ∧ give c = c' := by
  constructor
  · intro done
    cases switch with
    | flag given give =>
      simp only [applyFlag] at done
      split at done
      · cases done
      · next fresh =>
        cases done
        exact ⟨given,give,rfl,Bool.eq_false_iff.2 fresh,rfl⟩
    | valued add => cases done
    | halt h => cases done
  · rintro ⟨given,give,rfl,fresh,rfl⟩
    simp [applyFlag, fresh]

/-- What a long option can do. -/
inductive TakesLong (g : Grammar Choices) (c : Choices) (name : String) (value next : Option String) :
    Choices × Bool → Prop
  | flag {given : Choices → Bool} {give : Choices → Choices} (option : g.long name = some (.flag given give))
      (bare : value = none) (fresh : given c = false) : TakesLong g c name value next (give c,false)
  | joined {add : Choices → String → Except UsageError Choices} {v : String} {c' : Choices}
      (option : g.long name = some (.valued add)) (written : value = some v) (added : add c v = .ok c') :
      TakesLong g c name value next (c',false)
  | apart {add : Choices → String → Except UsageError Choices} {v : String} {c' : Choices}
      (option : g.long name = some (.valued add)) (bare : value = none)
      (following : next.map Argument.ofString = some (.operand v)) (added : add c v = .ok c') :
      TakesLong g c name value next (c',true)

theorem applyLong_eq_ok_iff {c : Choices} {name : String} {value next : Option String} {read : Choices × Bool} :
    g.applyLong c name value next = .ok read ↔ g.TakesLong c name value next read := by
  constructor
  · intro done
    unfold applyLong at done
    cases option : g.long name with
    | none =>
      rw [option] at done
      cases done
    | some switch =>
      rw [option] at done
      cases switch with
      | valued add =>
        cases value with
        | some v =>
          obtain ⟨c',added,rfl⟩ := exists_of_map_eq_ok done
          exact .joined option rfl (orUsage_eq_ok_iff.1 added)
        | none =>
          simp only at done
          split at done
          · next v following =>
            obtain ⟨c',added,rfl⟩ := exists_of_map_eq_ok done
            exact .apart option rfl following (orUsage_eq_ok_iff.1 added)
          · cases done
      | flag given give =>
        cases value with
        | some v => cases done
        | none =>
          obtain ⟨c',applied,rfl⟩ := exists_of_map_eq_ok done
          obtain ⟨_,_,same,fresh,rfl⟩ := applyFlag_eq_ok_iff.1 applied
          cases same
          exact .flag option rfl fresh
      | halt h =>
        cases value with
        | some v => cases done
        | none => cases done
  · intro takes
    unfold applyLong
    cases takes with
    | flag option bare fresh =>
      simp only [option, bare, applyFlag, fresh]
      rfl
    | joined option written added =>
      simp only [option, written, added]
      rfl
    | apart option bare following added =>
      simp only [option, bare, following, added]
      rfl

theorem applyLetter_keeps (short : ∀ x switch, g.short x = some switch → switch.Keeps P) {c c' : Choices} {x : Char}
    (start : P c) (done : g.applyLetter c x = .ok c') : P c' := by
  unfold applyLetter at done
  cases letter : g.short x with
  | none =>
    rw [letter] at done
    cases done
  | some switch =>
    rw [letter] at done
    obtain ⟨given,give,rfl,_,rfl⟩ := applyFlag_eq_ok_iff.1 done
    exact short x (.flag given give) letter c start

/-- Only an option that takes values can be given one. -/
theorem applyLong_keeps {name : String} {value next : Option String}
    (long : ∀ switch, g.long name = some switch → value = none ∨ (∃ add, switch = .valued add) → switch.Keeps P)
    {c c' : Choices} {taken : Bool} (start : P c) (done : g.applyLong c name value next = .ok (c',taken)) : P c' := by
  cases applyLong_eq_ok_iff.1 done with
  | @flag given give option bare _ => exact long (.flag given give) option (.inl bare) c start
  | @joined add v _ option _ added => exact long (.valued add) option (.inr ⟨add,rfl⟩) c v c' start added
  | @apart add v _ option _ _ added => exact long (.valued add) option (.inr ⟨add,rfl⟩) c v c' start added

/-- What no argument undoes holds at the end of a reading if it holds at its start. -/
theorem read_keeps (short : ∀ x switch, g.short x = some switch → switch.Keeps P)
    (operand : ∀ c v c', P c → g.operand c v = .ok c' → P c') : (args : List String) →
    (∀ a ∈ args, ∀ name value switch, Argument.ofString a = .long name value → g.long name = some switch →
      value = none ∨ (∃ add, switch = .valued add) → switch.Keeps P) →
    ∀ c c', P c → g.read c args = .ok c' → P c'
  | [], _, c, c', start, ended => by
    simp only [read] at ended
    cases ended
    exact start
  | a :: rest, long, c, c', start, ended => by
    have later := fun a (member : a ∈ rest) => long a (List.mem_cons_of_mem _ member)
    have later' := fun a (member : a ∈ rest.tail) => later a (List.mem_of_mem_tail member)
    simp only [read] at ended
    cases form : Argument.ofString a with
    | terminator =>
      simp only [form] at ended
      exact foldlM_keeps operand rest start (orUsage_eq_ok_iff.1 ended)
    | operand text =>
      simp only [form] at ended
      obtain ⟨next,done,ended⟩ := exists_of_bind_eq_ok ended
      exact read_keeps short operand rest later next c' (operand c text next start (orUsage_eq_ok_iff.1 done)) ended
    | short letters =>
      simp only [form] at ended
      obtain ⟨next,done,ended⟩ := exists_of_bind_eq_ok ended
      have each := fun c x c' (start : P c) (done : g.applyLetter c x = .ok c') => applyLetter_keeps short start done
      exact read_keeps short operand rest later next c' (foldlM_keeps each letters start done) ended
    | long name value =>
      simp only [form] at ended
      obtain ⟨⟨next,taken⟩,done,ended⟩ := exists_of_bind_eq_ok ended
      have holds := applyLong_keeps (fun switch => long a List.mem_cons_self name value switch form) start done
      cases taken with
      | false => exact read_keeps short operand rest later next c' holds ended
      | true => exact read_keeps short operand rest.tail later' next c' holds ended
termination_by args => args.length
decreasing_by all_goals
  simp only [List.length_cons, List.length_tail]
  omega

end Grammar

theorem RunOptions.switch_keeps {Choices : Type} {P : Choices → Prop} {get : Choices → RunOptions}
    (set : Choices → RunOptions → Choices) (sets : ∀ c run, P c → P (set c run)) {name : String} {switch : Switch Choices}
    (found : RunOptions.switch get set name = some switch) : switch.Keeps P := by
  unfold RunOptions.switch at found
  split at found <;> cases found
  · intro c v c' start added
    obtain ⟨e,_,rfl⟩ := exists_of_map_eq_ok added
    exact sets c _ start
  · exact fun c start => sets c _ start
  · exact fun c start => sets c _ start
  · exact fun c start => sets c _ start
  · trivial

theorem Argument.eq_of_ofString_long {s name : String} (h : Argument.ofString s = .long name none) : s = "--" ++ name := by
  unfold Argument.ofString at h
  split at h
  · cases h
  · next rest _ spelled =>
    have named : (splitEquals rest).1 = name ∧ (splitEquals rest).2 = none := by
      injection h with first second
      exact ⟨first,second⟩
    unfold splitEquals at named
    split at named
    · obtain ⟨rfl,_⟩ := named
      rw [← String.toList_inj, spelled]
      simp
    · cases named.2
  · cases h
  · cases h

theorem WalkOptions.mem_of_check {args : List String} {o o' : WalkOptions} (start : o.check = false)
    (read : WalkOptions.grammar.read o args = .ok o') (checks : o'.check) : "--check" ∈ args := by
  by_cases absent : "--check" ∈ args
  · exact absent
  have shared {name : String} {switch : Switch WalkOptions}
      (found : RunOptions.switch WalkOptions.run (fun o run => { o with run }) name = some switch) :
      switch.Keeps fun o => o.check = false :=
    RunOptions.switch_keeps (fun o run => { o with run }) (fun _ _ unchecked => unchecked) found
  have kept : o'.check = false := by
    refine Grammar.read_keeps (P := fun o => o.check = false) ?_ ?_ args ?_ o o' start read
    · intro x switch found
      exact shared found
    · intro o v o' unchecked done
      simp only [WalkOptions.grammar] at done
      split at done
      · cases done
      · obtain ⟨p,_,rfl⟩ := exists_of_map_eq_ok done
        exact unchecked
    · intro a member name value switch form found given
      simp only [WalkOptions.grammar] at found
      split at found
      · cases found
        intro o v o' unchecked done
        cases done
        exact unchecked
      · cases found
        intro o v o' unchecked done
        obtain ⟨p,_,rfl⟩ := exists_of_map_eq_ok done
        exact unchecked
      · cases found
        exact fun o unchecked => unchecked
      · cases found
        rcases given with rfl | ⟨add,other⟩
        · obtain rfl : a = "--check" := Argument.eq_of_ofString_long form
          exact absurd member absent
        · cases other
      · exact shared found
  rw [kept] at checks
  cases checks

/-! ## The path of a single file -/

theorem Path.text?_ofString (s : String) : (Path.ofString s).text? = some s.toList := Utf8.decode?_encode s.toList

theorem FileOptions.isText_of_read {args : List String} {o o' : FileOptions} (start : ∀ p, o.file = some p → p.text?.isSome)
    (read : FileOptions.grammar.read o args = .ok o') : ∀ p, o'.file = some p → p.text?.isSome := by
  have shared {name : String} {switch : Switch FileOptions}
      (found : RunOptions.switch FileOptions.run (fun o run => { o with run }) name = some switch) :
      switch.Keeps fun o => ∀ p, o.file = some p → p.text?.isSome :=
    RunOptions.switch_keeps (fun o run => { o with run }) (fun _ _ text => text) found
  refine Grammar.read_keeps (P := fun o => ∀ p, o.file = some p → p.text?.isSome) ?_ ?_ args ?_ o o' start read
  · intro x switch found
    exact shared found
  · intro o v o' text done
    simp only [FileOptions.grammar] at done
    split at done
    · cases done
    · obtain ⟨p,given,rfl⟩ := exists_of_map_eq_ok done
      intro p' same
      cases same
      unfold readPath at given
      split at given
      · cases given
      · cases given
        rw [Path.text?_ofString, Option.isSome_some]
  · intro a member name value switch form found given
    exact shared found

/-- The path of a single file is text, since arguments are. -/
theorem Command.isText_of_read {args : List String} {p : Path} {o : RunOptions}
    (read : Command.read args = .ok (.file p o)) : p.text?.isSome := by
  obtain ⟨_,name,rest,q,_,spelled,_⟩ := readFrom_eq_ok read
  unfold readCommand at spelled
  split at spelled
  · obtain ⟨o',_,other⟩ := exists_of_map_eq_ok spelled
    cases other
  · obtain ⟨o',chosen,spelled⟩ := exists_of_bind_eq_ok spelled
    split at spelled
    · next p' named =>
      cases spelled
      exact FileOptions.isText_of_read (fun p none => by cases none) chosen p named
    · cases spelled
  · obtain ⟨q',_,other⟩ := exists_of_map_eq_ok spelled
    cases other
  · cases spelled
  · cases spelled

end ParamTidy

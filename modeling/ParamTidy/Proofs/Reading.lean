import ParamTidy.CommandLine.Invocation

/-!
# One more choice among the arguments

A reading that never makes some choice goes through just as well with that choice made at the start, and ends with it made
besides all others (`Grammar.read_openIn`). So `--check` may be put after the name of the command that walks (`read_check`).
-/

namespace ParamTidy

/-- A choice that a reading may make, by an option that takes no value. -/
structure Choice (α : Type) where
  made : α → Bool
  make : α → α

namespace Choice

variable {α β γ ε δ : Type}

/-- The same choice where something else is read at the same time. -/
def beside (k : Choice α) (β : Type) : Choice (α × β) := ⟨fun x => k.made x.1,fun x => (k.make x.1,x.2)⟩

/-- A step that ends without the choice made began without it, and ends alike, but for the choice, if that is made first. -/
def OpenIn (k : Choice α) (k' : Choice β) (step : α → Except ε β) : Prop :=
  ∀ a b, step a = .ok b → k'.made b = false → k.made a = false ∧ step (k.make a) = .ok (k'.make b)

section
variable {k : Choice α} {k' : Choice β} {k'' : Choice γ}

theorem openIn_ok : k.OpenIn k (fun a => (.ok a : Except ε α)) := by
  intro a b ended unmade
  cases ended
  exact ⟨unmade,rfl⟩

theorem openIn_error (refusal : ε) : k.OpenIn k' (fun _ => .error refusal) := by
  intro a b ended
  cases ended

/-- Another choice may be made at any time. -/
theorem openIn_map {σ : Type} (value : Except ε σ) (add : α → σ → α) (made : ∀ a x, k.made (add a x) = k.made a)
    (make : ∀ a x, add (k.make a) x = k.make (add a x)) : k.OpenIn k fun a => value.map (add a) := by
  intro a b ended unmade
  cases value with
  | error e => cases ended
  | ok x =>
    cases ended
    rw [made] at unmade
    exact ⟨unmade,congrArg Except.ok (make a x)⟩

theorem OpenIn.mapError {step : α → Except ε β} (first : k.OpenIn k' step) (tell : ε → δ) :
    k.OpenIn k' fun a => (step a).mapError tell := by
  intro a b ended unmade
  cases done : step a with
  | error e =>
    simp only [done] at ended
    cases ended
  | ok b' =>
    simp only [done] at ended
    cases ended
    obtain ⟨before,alike⟩ := first a b done unmade
    exact ⟨before,by simp only [alike]; rfl⟩

theorem OpenIn.bind {step : α → Except ε β} {next : β → Except ε γ} (first : k.OpenIn k' step)
    (second : k'.OpenIn k'' next) : k.OpenIn k'' fun a => step a >>= next := by
  intro a c ended unmade
  cases done : step a with
  | error e =>
    simp only [done] at ended
    cases ended
  | ok b =>
    simp only [done] at ended
    obtain ⟨between,rest⟩ := second b c ended unmade
    obtain ⟨before,alike⟩ := first a b done between
    exact ⟨before,by simp only [alike]; exact rest⟩

theorem OpenIn.beside {step : α → Except ε β} (first : k.OpenIn k' step) (x : γ) :
    k.OpenIn (k'.beside γ) fun a => (step a).map (·,x) := by
  intro a b ended unmade
  cases done : step a with
  | error e =>
    simp only [done] at ended
    cases ended
  | ok b' =>
    simp only [done] at ended
    cases ended
    obtain ⟨before,alike⟩ := first a b' done unmade
    exact ⟨before,by simp only [alike]; rfl⟩

theorem OpenIn.foldlM {σ : Type} {step : α → σ → Except ε α} (each : ∀ x, k.OpenIn k (step · x)) (xs : List σ) :
    k.OpenIn k fun a => xs.foldlM step a := by
  induction xs with
  | nil => exact openIn_ok
  | cons x xs ih => simpa only [List.foldlM_cons] using (each x).bind ih

end

end Choice

/-! ## Grammars -/

/-- An option that comes to the same before the choice and after it, unless it makes the choice itself. -/
def Switch.OpenIn {Choices : Type} (k : Choice Choices) : Switch Choices → Prop
  | .flag given give => ∀ c, k.made (give c) = false →
      k.made c = false ∧ given (k.make c) = given c ∧ give (k.make c) = k.make (give c)
  | .valued add => ∀ v, k.OpenIn k (add · v)
  | .halt _ => True

namespace Grammar

variable {Choices : Type} {g : Grammar Choices} {k : Choice Choices}

/-- A grammar in which all options and operands but the one that makes the choice leave it open. -/
structure OpenIn (g : Grammar Choices) (k : Choice Choices) : Prop where
  long : ∀ name switch, g.long name = some switch → switch.OpenIn k
  short : ∀ c switch, g.short c = some switch → switch.OpenIn k
  operand : ∀ v, k.OpenIn k (g.operand · v)

theorem applyFlag_openIn {switch : Switch Choices} (opens : switch.OpenIn k) (name : String) :
    k.OpenIn k (applyFlag · name switch) := by
  cases switch with
  | flag given give =>
    intro c c' ended unmade
    simp only [applyFlag] at ended ⊢
    by_cases already : given c
    · simp [already] at ended
    · simp only [already, Bool.false_eq_true, if_false, Except.ok.injEq] at ended
      subst ended
      obtain ⟨before,given',give'⟩ := opens c unmade
      exact ⟨before,by simp [given', already, give']⟩
  | valued add => exact Choice.openIn_error _
  | halt h => exact Choice.openIn_error _

variable (opens : g.OpenIn k)
include opens

theorem applyLetter_openIn (c : Char) : k.OpenIn k (g.applyLetter · c) := by
  unfold applyLetter
  cases letter : g.short c with
  | none => exact Choice.openIn_error _
  | some switch => exact applyFlag_openIn (opens.short c switch letter) _

theorem applyLong_openIn (name : String) (value next : Option String) :
    k.OpenIn (k.beside Bool) (g.applyLong · name value next) := by
  unfold applyLong
  cases option : g.long name with
  | none => exact Choice.openIn_error _
  | some switch =>
    have each := opens.long name switch option
    cases switch with
    | valued add =>
      cases value with
      | some v => exact ((each v).mapError Halt.usage).beside false
      | none =>
        cases next.map Argument.ofString with
        | none => exact Choice.openIn_error _
        | some following =>
          cases following with
          | operand v => exact ((each v).mapError Halt.usage).beside true
          | _ => exact Choice.openIn_error _
    | _ =>
      cases value with
      | some v => exact Choice.openIn_error _
      | none => exact (applyFlag_openIn each _).beside false

/-- With the choice made first, a reading that never makes it goes through all the same. -/
theorem read_openIn : (args : List String) → k.OpenIn k (g.read · args)
  | [] => by
    simp only [read]
    exact Choice.openIn_ok
  | a :: rest => by
    simp only [read]
    cases Argument.ofString a with
    | terminator => exact (Choice.OpenIn.foldlM opens.operand rest).mapError Halt.usage
    | operand text => exact ((opens.operand text).mapError Halt.usage).bind (read_openIn rest)
    | short letters => exact (Choice.OpenIn.foldlM (applyLetter_openIn opens) letters).bind (read_openIn rest)
    | long name value =>
      refine (applyLong_openIn opens name value rest.head?).bind ?_
      rintro ⟨c,taken⟩ c' ended unmade
      cases taken with
      | false => exact read_openIn rest c c' ended unmade
      | true => exact read_openIn rest.tail c c' ended unmade
termination_by args => args.length
decreasing_by all_goals
  simp only [List.length_cons, List.length_tail]
  omega

end Grammar

/-! ## The choice to check -/

def WalkOptions.asCheck (o : WalkOptions) : WalkOptions := { o with check := true }

def WalkOptions.checking : Choice WalkOptions := ⟨WalkOptions.check,WalkOptions.asCheck⟩

/-- The options that all commands share leave a choice open that stands beside them. -/
theorem RunOptions.switch_openIn {Choices : Type} {k : Choice Choices} {get : Choices → RunOptions}
    (set : Choices → RunOptions → Choices) (gets : ∀ c, get (k.make c) = get c)
    (sets : ∀ c run, set (k.make c) run = k.make (set c run)) (made : ∀ c run, k.made (set c run) = k.made c)
    {name : String} {switch : Switch Choices} (found : RunOptions.switch get set name = some switch) :
    switch.OpenIn k := by
  have flag (given : RunOptions → Bool) (give : RunOptions → RunOptions) :
      (Switch.flag (fun c => given (get c)) fun c => set c (give (get c))).OpenIn k := by
    intro c unmade
    rw [made] at unmade
    exact ⟨unmade,by simp only [gets],by simp only [gets, sets]⟩
  unfold RunOptions.switch at found
  split at found <;> cases found
  · intro v
    refine Choice.openIn_map _ _ ?_ ?_
    · intro c e
      exact made c _
    · intro c e
      rw [gets, sets]
  · exact flag RunOptions.dryRun fun run => { run with dryRun := true }
  · exact flag RunOptions.json fun run => { run with json := true }
  · exact flag RunOptions.quiet fun run => { run with quiet := true }
  · trivial

theorem WalkOptions.grammar_openIn : WalkOptions.grammar.OpenIn WalkOptions.checking := by
  have shared {name : String} {switch : Switch WalkOptions}
      (found : RunOptions.switch WalkOptions.run (fun o run => { o with run }) name = some switch) :
      switch.OpenIn WalkOptions.checking :=
    RunOptions.switch_openIn (fun o run => { o with run }) (fun _ => rfl) (fun _ _ => rfl) (fun _ _ => rfl) found
  constructor
  · intro name switch found
    simp only [WalkOptions.grammar] at found
    split at found
    · cases found
      intro v
      let add (o : WalkOptions) (v : String) : WalkOptions := { o with skipDirs := o.skipDirs ++ [v.toList] }
      exact Choice.openIn_map (.ok v) add (fun _ _ => rfl) (fun _ _ => rfl)
    · cases found
      intro v
      exact Choice.openIn_map (readPath v) _ (fun _ _ => rfl) (fun _ _ => rfl)
    · cases found
      intro c unmade
      exact ⟨unmade,rfl,rfl⟩
    · -- The option that makes the choice; where it has been given the choice is made.
      cases found
      intro c unmade
      cases unmade
    · exact shared found
  · intro c switch found
    exact shared found
  · intro v o o' ended unmade
    cases named : o.root with
    | some p =>
      simp only [WalkOptions.grammar, named] at ended
      cases ended
    | none =>
      have named' : (WalkOptions.checking.make o).root = none := named
      let add (o : WalkOptions) (p : Path) : WalkOptions := { o with root := some p }
      have opens := Choice.openIn_map (k := WalkOptions.checking) (readPath v) add (fun _ _ => rfl) (fun _ _ => rfl)
      simp only [WalkOptions.grammar, named, named'] at ended ⊢
      exact opens o o' ended unmade

/-! ## Commands -/

theorem Argument.ofString_eq_operand {s text : String} (h : Argument.ofString s = .operand text) : text = s := by
  unfold Argument.ofString at h
  split at h
  · cases h
  · cases h
  · cases h
  · exact (Argument.operand.inj h).symm

theorem readCommand_eq_walk {quiet : Bool} {name : String} {args : List String} {o : WalkOptions}
    (h : readCommand quiet name args = .ok (.walk o)) : name = "walk" := by
  unfold readCommand at h
  split at h
  · rfl
  · cases read : FileOptions.grammar.read {} args with
    | error halt =>
      rw [read] at h
      cases h
    | ok file =>
      rw [read] at h
      cases named : file.file <;> simp [bind, Except.bind, named] at h
  · cases read : versionGrammar.read false args with
    | error halt =>
      rw [read] at h
      cases h
    | ok q =>
      rw [read] at h
      cases h
  · cases h
  · cases h

/-- The name of a command stands among the arguments that spell it, and what comes after it is read as its arguments whatever
that is. -/
theorem Command.readFrom_eq_ok {quiet : Bool} {args : List String} {c : Command}
    (h : Command.readFrom quiet args = .ok c) : ∃ lead name rest q, args = lead ++ name :: rest ∧
      readCommand q name rest = .ok c ∧
      ∀ rest', Command.readFrom quiet (lead ++ name :: rest') = readCommand q name rest' := by
  induction args generalizing quiet with
  | nil => cases h
  | cons a args ih =>
    cases form : Argument.ofString a with
    | terminator =>
      simp only [readFrom, form] at h
      cases h
    | operand name =>
      simp only [readFrom, form] at h
      obtain rfl := Argument.ofString_eq_operand form
      exact ⟨[],name,args,quiet,rfl,h,fun rest' => by simp only [List.nil_append, readFrom, form]⟩
    | short letters =>
      simp only [readFrom, form] at h
      cases told : letters.foldlM leadingGrammar.applyLetter quiet with
      | error halt =>
        rw [told] at h
        cases h
      | ok quiet' =>
        rw [told] at h
        obtain ⟨lead,name,rest,q,rfl,spelled,reads⟩ := ih h
        refine ⟨a :: lead,name,rest,q,rfl,spelled,fun rest' => ?_⟩
        simp only [List.cons_append, readFrom, form, told]
        exact reads rest'
    | long name value =>
      simp only [readFrom, form] at h
      cases told : leadingGrammar.applyLong quiet name value none with
      | error halt =>
        rw [told] at h
        cases h
      | ok read =>
        rw [told] at h
        obtain ⟨lead,name,rest,q,rfl,spelled,reads⟩ := ih h
        refine ⟨a :: lead,name,rest,q,rfl,spelled,fun rest' => ?_⟩
        simp only [List.cons_append, readFrom, form, told]
        exact reads rest'

/-- Where the arguments spell a walk that is no check, the check is spelled by one more argument after the command's name. -/
theorem Command.read_check {args : List String} {o : WalkOptions} (h : Command.read args = .ok (.walk o))
    (plain : o.check = false) : ∃ lead rest, args = lead ++ "walk" :: rest ∧
      Command.read (lead ++ "walk" :: "--check" :: rest) = .ok (.walk o.asCheck) := by
  obtain ⟨lead,name,rest,q,rfl,spelled,reads⟩ := readFrom_eq_ok h
  obtain rfl := readCommand_eq_walk spelled
  refine ⟨lead,rest,rfl,?_⟩
  rw [read, reads] at h
  rw [read, reads]
  simp only [readCommand] at h ⊢
  cases chosen : WalkOptions.grammar.read {} rest with
  | error halt =>
    rw [chosen] at h
    cases h
  | ok o' =>
    rw [chosen] at h
    cases h
    have first : WalkOptions.grammar.read {} ("--check" :: rest) =
        WalkOptions.grammar.read (WalkOptions.checking.make {}) rest := by
      have form : Argument.ofString "--check" = .long "check" none := by decide
      rw [Grammar.read, form]
      rfl
    obtain ⟨_,alike⟩ := Grammar.read_openIn WalkOptions.grammar_openIn rest {} o' chosen plain
    simp only at alike
    rw [first, alike]
    rfl

end ParamTidy

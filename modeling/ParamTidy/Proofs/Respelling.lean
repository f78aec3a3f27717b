import ParamTidy.Proofs.Arguments

/-!
# Arguments that only choose how to print

Of the arguments that spell a walk or the work on one file, those that only choose how to print may be left out and others put
in their place: the rest is read as before (`Command.exists_presented`). `Grammar.read_respells` is the reading with the choice
of printing made beforehand, in whatever way, and the arguments that choose it left out.
-/

namespace ParamTidy

/-! ## Options -/

section
variable {ι Choices : Type}

/-- An option that does nothing but choose how to print, which is chosen otherwise anyway. -/
def Switch.Presents (present : ι → Choices → Choices) : Switch Choices → Prop
  | .flag _ give => ∀ i c, present i (give c) = present i c
  | .valued _ => False
  | .halt _ => True

/-- An option that comes to the same however things are to be printed. -/
def Switch.Works (present : ι → Choices → Choices) : Switch Choices → Prop
  | .flag given give => ∀ i c, given (present i c) = given c ∧ give (present i c) = present i (give c)
  | .valued add => ∀ i c v, add (present i c) v = (add c v).map (present i)
  | .halt _ => True

theorem Switch.Presents.keeps {present : ι → Choices → Choices} {switch : Switch Choices} (presents : switch.Presents present)
    (c : Choices) : switch.Keeps fun c' => ∀ i, present i c' = present i c := by
  cases switch with
  | flag given give => exact fun c' same i => (presents i c').trans (same i)
  | valued add => exact presents.elim
  | halt h => trivial

/-- A grammar that tells the choices of how to print from all others; single letters make no others. -/
structure Grammar.Separates (g : Grammar Choices) (present : ι → Choices → Choices) : Prop where
  long : ∀ name switch, g.long name = some switch → switch.Presents present ∨ switch.Works present
  short : ∀ x switch, g.short x = some switch → switch.Presents present
  operand : ∀ i c v, g.operand (present i c) v = (g.operand c v).map (present i)

namespace Grammar

variable {g : Grammar Choices} {present : ι → Choices → Choices}

/-- A long option that chooses how to print can be left out, and any other does the same whatever is chosen of that. -/
theorem applyLong_respells (separates : g.Separates present) {c c' : Choices} {name : String} {value next : Option String}
    {taken : Bool} (done : g.applyLong c name value next = .ok (c',taken)) :
    (∀ i, present i c' = present i c) ∧ taken = false ∨
      ∀ i next', (taken → next' = next) → g.applyLong (present i c) name value next' = .ok (present i c',taken) := by
  simp only [applyLong_eq_ok_iff] at done ⊢
  cases done with
  | @flag given give option bare fresh =>
    rcases separates.long name _ option with presents | works
    · exact .inl ⟨fun i => presents i c,rfl⟩
    · right
      intro i next' _
      obtain ⟨given',give'⟩ := works i c
      rw [← give']
      exact .flag option bare (given'.trans fresh)
  | @joined add v _ option written added =>
    have works := (separates.long name _ option).resolve_left id
    right
    intro i next' _
    exact .joined option written (by rw [works i c v, added]; rfl)
  | @apart add v _ option bare following added =>
    have works := (separates.long name _ option).resolve_left id
    right
    intro i next' same
    rw [← same rfl] at following
    exact .apart option bare following (by rw [works i c v, added]; rfl)

theorem foldlM_operand_presented (separates : g.Separates present) (vs : List String) (c : Choices) (i : ι) :
    vs.foldlM g.operand (present i c) = (vs.foldlM g.operand c).map (present i) := by
  induction vs generalizing c with
  | nil => rfl
  | cons v vs ih =>
    rw [List.foldlM_cons, List.foldlM_cons, separates.operand i c v]
    cases g.operand c v with
    | error e => rfl
    | ok next => exact ih next

/-- A reading goes through with the choice of printing made first, whatever that is, and without the arguments that make it. -/
theorem read_respells (separates : g.Separates present) : (args : List String) → ∀ c c', g.read c args = .ok c' →
    ∃ args', List.Sublist args' args ∧ ∀ i, g.read (present i c) args' = .ok (present i c')
  | [], c, c', ended => by
    simp only [read] at ended
    cases ended
    exact ⟨[],List.Sublist.refl _,fun i => by simp only [read]⟩
  | a :: rest, c, c', ended => by
    simp only [read] at ended
    cases form : Argument.ofString a with
    | terminator =>
      simp only [form] at ended
      refine ⟨a :: rest,List.Sublist.refl _,fun i => ?_⟩
      simp only [read, form]
      rw [foldlM_operand_presented separates, orUsage_eq_ok_iff.1 ended]
      rfl
    | operand text =>
      simp only [form] at ended
      obtain ⟨next,done,ended⟩ := exists_of_bind_eq_ok ended
      obtain ⟨args',part,reads⟩ := read_respells separates rest next c' ended
      refine ⟨a :: args',part.cons_cons a,fun i => ?_⟩
      simp only [read, form]
      rw [separates.operand, orUsage_eq_ok_iff.1 done]
      exact reads i
    | short letters =>
      simp only [form] at ended
      obtain ⟨next,done,ended⟩ := exists_of_bind_eq_ok ended
      obtain ⟨args',part,reads⟩ := read_respells separates rest next c' ended
      have keeps := fun x switch found => (separates.short x switch found).keeps c
      have same : ∀ i, present i next = present i c :=
        foldlM_keeps (fun _ _ _ before done => applyLetter_keeps keeps before done) letters (fun _ => rfl) done
      exact ⟨args',part.cons a,fun i => by rw [← same i, reads i]⟩
    | long name value =>
      simp only [form] at ended
      obtain ⟨⟨next,taken⟩,done,ended⟩ := exists_of_bind_eq_ok ended
      rcases applyLong_respells separates done with ⟨same,rfl⟩ | again
      · obtain ⟨args',part,reads⟩ := read_respells separates rest next c' ended
        exact ⟨args',part.cons a,fun i => by rw [← same i, reads i]⟩
      · cases taken with
        | false =>
          obtain ⟨args',part,reads⟩ := read_respells separates rest next c' ended
          refine ⟨a :: args',part.cons_cons a,fun i => ?_⟩
          have applied := again i args'.head? (fun taken => by cases taken)
          simp only [read, form, applied]
          exact reads i
        | true =>
          -- What was taken stays right behind.
          obtain ⟨args',part,reads⟩ := read_respells separates rest.tail next c' ended
          cases rest with
          | nil =>
            obtain rfl := List.sublist_nil.mp part
            refine ⟨[a],List.Sublist.refl _,fun i => ?_⟩
            have applied := again i none fun _ => rfl
            simp only [read, form, List.head?_nil, applied]
            exact reads i
          | cons v rest =>
            refine ⟨a :: v :: args',(part.cons_cons v).cons_cons a,fun i => ?_⟩
            have applied := again i (some v) fun _ => rfl
            simp only [read, form, List.head?_cons, applied]
            exact reads i
termination_by args => args.length
decreasing_by all_goals
  simp only [List.length_cons, List.length_tail]
  omega

theorem read_flag {c : Choices} {a name : String} {given : Choices → Bool} {give : Choices → Choices}
    (form : Argument.ofString a = .long name none) (option : g.long name = some (.flag given give)) (fresh : given c = false)
    (rest : List String) : g.read c (a :: rest) = g.read (give c) rest := by
  have applied : g.applyLong c name none rest.head? = .ok (give c,false) := applyLong_eq_ok_iff.2 (.flag option rfl fresh)
  simp only [read, form, applied]
  rfl

end Grammar

end

/-! ## The choices of how to print -/

/-- The same choices, but for how to print. -/
def RunOptions.presented (o : RunOptions) (quiet json : Bool) : RunOptions := { o with quiet, json }

/-- The arguments that ask for a way to print. -/
def RunOptions.flags (quiet json : Bool) : List String := (if quiet then ["--quiet"] else []) ++ if json then ["--json"] else []

/-- Where among other choices the shared ones are kept. -/
structure RunOptions.Within {Choices : Type} (get : Choices → RunOptions) (set : Choices → RunOptions → Choices) :
    Prop where
  get_set : ∀ c run, get (set c run) = run
  set_set : ∀ c run run', set (set c run) run' = set c run'
  set_get : ∀ c, set c (get c) = c

namespace RunOptions.Within

variable {Choices : Type} {get : Choices → RunOptions} {set : Choices → RunOptions → Choices} {name : String}
  {switch : Switch Choices} (within : RunOptions.Within get set)
include within

def present (_ : RunOptions.Within get set) (i : Bool × Bool) (c : Choices) : Choices := set c ((get c).presented i.1 i.2)

theorem get_present (i : Bool × Bool) (c : Choices) : get (within.present i c) = (get c).presented i.1 i.2 :=
  within.get_set c _

theorem present_set (i : Bool × Bool) (c : Choices) (run : RunOptions) :
    within.present i (set c run) = set c (run.presented i.1 i.2) := by
  rw [present, within.get_set, within.set_set]

theorem set_present (i : Bool × Bool) (c : Choices) (run : RunOptions) : set (within.present i c) run = set c run :=
  within.set_set c _ run

theorem switch_presents (found : RunOptions.switch get set name = some switch) :
    switch.Presents within.present ∨ switch.Works within.present := by
  unfold RunOptions.switch at found
  split at found <;> cases found
  · right
    intro i c v
    dsimp only
    cases readEncoding v with
    | error e => rfl
    | ok e => simp only [Except.map, within.get_present, within.set_present, within.present_set, presented]
  · right
    intro i c
    simp only [within.get_present, within.set_present, within.present_set, presented, and_self]
  · exact .inl fun i c => within.present_set i c _
  · exact .inl fun i c => within.present_set i c _
  · exact .inl trivial

theorem switch_letter_presents {x : Char} (found : RunOptions.switch get set (longNameOfLetter x) = some switch) :
    switch.Presents within.present := by
  unfold longNameOfLetter at found
  split at found
  · cases found
    exact fun i c => within.present_set i c _
  · split at found
    · cases found
      trivial
    · cases found

theorem read_flags {g : Grammar Choices}
    (long : ∀ name, name = "quiet" ∨ name = "json" → g.long name = RunOptions.switch get set name) {c : Choices}
    (plain : get c = {}) (quiet json : Bool) (args : List String) :
    g.read c (RunOptions.flags quiet json ++ args) = g.read (within.present (quiet,json) c) args := by
  have quietly (c : Choices) (fresh : (get c).quiet = false) (args : List String) :
      g.read c ("--quiet" :: args) = g.read (set c { get c with quiet := true }) args :=
    Grammar.read_flag (by decide) (long "quiet" (.inl rfl)) fresh args
  have document (c : Choices) (fresh : (get c).json = false) (args : List String) :
      g.read c ("--json" :: args) = g.read (set c { get c with json := true }) args :=
    Grammar.read_flag (by decide) (long "json" (.inr rfl)) fresh args
  have kept : set c {} = c := by rw [← plain, within.set_get]
  cases quiet <;> cases json <;>
    simp [flags, quietly, document, within.get_set, within.set_set, plain, present, presented, kept]

/-- Of arguments that can be read, those that choose how to print may be left out and any of that kind put first. -/
theorem exists_read_flags {g : Grammar Choices} (separates : g.Separates within.present)
    (long : ∀ name, name = "quiet" ∨ name = "json" → g.long name = RunOptions.switch get set name) {c c' : Choices}
    (plain : get c = {}) {args : List String} (read : g.read c args = .ok c') : ∃ rest, List.Sublist rest args ∧
      ∀ quiet json, g.read c (RunOptions.flags quiet json ++ rest) = .ok (within.present (quiet,json) c') := by
  obtain ⟨rest,part,reads⟩ := Grammar.read_respells separates args c c' read
  exact ⟨rest,part,fun quiet json => (within.read_flags long plain quiet json rest).trans (reads (quiet,json))⟩

end RunOptions.Within

/-! ## Commands -/

def WalkOptions.presented (o : WalkOptions) (quiet json : Bool) : WalkOptions := { o with run := o.run.presented quiet json }

/-- The same command, but for how to print; what tells the version prints as it does. -/
def Command.presented (quiet json : Bool) : Command → Command
  | walk o => .walk (o.presented quiet json)
  | file p o => .file p (o.presented quiet json)
  | version quiet => .version quiet

/-- The choices of a command that reads files. -/
def Command.options? : Command → Option RunOptions
  | walk o => some o.run
  | file _ o => some o
  | version _ => none

theorem WalkOptions.within : RunOptions.Within WalkOptions.run fun o run => { o with run } :=
  ⟨fun _ _ => rfl,fun _ _ _ => rfl,fun _ => rfl⟩

theorem FileOptions.within : RunOptions.Within FileOptions.run fun o run => { o with run } :=
  ⟨fun _ _ => rfl,fun _ _ _ => rfl,fun _ => rfl⟩

theorem WalkOptions.grammar_separates : WalkOptions.grammar.Separates WalkOptions.within.present where
  long := by
    intro name switch found
    simp only [WalkOptions.grammar] at found
    split at found
    · cases found
      exact .inr fun i o v => rfl
    · cases found
      right
      intro i o v
      dsimp only
      cases readPath v <;> rfl
    · cases found
      exact .inr fun i o => ⟨rfl,rfl⟩
    · cases found
      exact .inr fun i o => ⟨rfl,rfl⟩
    · exact WalkOptions.within.switch_presents found
  short := fun x switch found => WalkOptions.within.switch_letter_presents found
  operand := by
    intro i o v
    have same : (WalkOptions.within.present i o).root = o.root := rfl
    simp only [WalkOptions.grammar, same]
    cases o.root with
    | some p => rfl
    | none => cases readPath v <;> rfl

theorem FileOptions.grammar_separates : FileOptions.grammar.Separates FileOptions.within.present where
  long := fun name switch found => FileOptions.within.switch_presents found
  short := fun x switch found => FileOptions.within.switch_letter_presents found
  operand := by
    intro i o v
    have same : (FileOptions.within.present i o).file = o.file := rfl
    simp only [FileOptions.grammar, same]
    cases o.file with
    | some p => rfl
    | none => cases readPath v <;> rfl

/-- The arguments of a command that reads files, without those that only choose how to print, spell it with any choice of that
that is put right after the command's name. -/
theorem Command.exists_presented {args : List String} {c : Command} {o : RunOptions} (read : Command.read args = .ok c)
    (runs : c.options? = some o) : ∃ name rest, List.Sublist (name :: rest) args ∧
      ∀ quiet json, Command.read (name :: (RunOptions.flags quiet json ++ rest)) = .ok (c.presented quiet json) := by
  obtain ⟨lead,name,rest,q,rfl,spelled,_⟩ := readFrom_eq_ok read
  have after {rest' : List String} (part : List.Sublist rest' rest) : List.Sublist (name :: rest') (lead ++ name :: rest) :=
    (part.cons_cons name).trans (List.sublist_append_right lead _)
  unfold readCommand at spelled
  split at spelled
  · obtain ⟨w,chosen,rfl⟩ := exists_of_map_eq_ok spelled
    obtain ⟨rest',part,reads⟩ := WalkOptions.within.exists_read_flags WalkOptions.grammar_separates
      (by rintro _ (rfl | rfl) <;> rfl) rfl chosen
    refine ⟨"walk",rest',after part,fun quiet json => ?_⟩
    have form : Argument.ofString "walk" = .operand "walk" := by decide
    simp only [Command.read, Command.readFrom, form, readCommand, reads]
    rfl
  · obtain ⟨w,chosen,spelled⟩ := exists_of_bind_eq_ok spelled
    obtain ⟨rest',part,reads⟩ := FileOptions.within.exists_read_flags FileOptions.grammar_separates
      (by rintro _ (rfl | rfl) <;> rfl) rfl chosen
    refine ⟨"file",rest',after part,fun quiet json => ?_⟩
    have form : Argument.ofString "file" = .operand "file" := by decide
    split at spelled
    · next p named =>
      cases spelled
      have named' : (FileOptions.within.present (quiet,json) w).file = some p := named
      simp only [Command.read, Command.readFrom, form, readCommand, reads, bind, Except.bind, named']
      rfl
    · cases spelled
  · obtain ⟨_,_,rfl⟩ := exists_of_map_eq_ok spelled
    cases runs
  · cases spelled
  · cases spelled

end ParamTidy

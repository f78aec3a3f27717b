import ParamTidy.Proofs.Magnitude
import ParamTidy.Proofs.Presentation

/-!
# Printed lines and printed totals

Which lines are printed hangs on what became of each file, the totals at their end on the counts. They agree
(`walk_lines_add_up`), because a walk tells of forms only where there are some, and only in the words of its mode:
`simplifyFile_fits` is one file, `walk_fits` all files of a walk.
-/

namespace ParamTidy

/-! ## What lines say of forms -/

/-- The words for what comes of forms. -/
def Mode.words : Mode → String
  | write => "simplified"
  | dryRun => "would simplify"

namespace Line

/-- What a line says of the forms in a file: the mode by its words, and how many there are. -/
def forms? : Line → Option (Mode × Nat)
  | simplified _ n _ => some (.write,n)
  | wouldSimplify _ n _ => some (.dryRun,n)
  | _ => none

def count (l : Line) : Nat := (l.forms?.map Prod.snd).getD 0

def isSkip : Line → Bool
  | skippedDirectory _ | skippedFile _ => true
  | _ => false

/-- A line about forms begins with a blank, and its number ends with one. -/
theorem toList_ofForms (words : String) (p : Path) (n : Nat) (e : Encoding) : ∃ rest,
    (ofForms words p n e).toList = ' ' :: ' ' :: '›' :: ' ' :: (words.toList ++ ' ' :: (Nat.toDigits 10 n ++ ' ' :: rest)) := by
  refine ⟨"empty parameter list(s) in ".toList
    ++ (p.shown.toList ++ (if e = .utf8 then "" else " (from " ++ e.label ++ ")").toList),?_⟩
  simp [ofForms, Nat.repr]

theorem head?_append_ne {a : String} {c d : Char} {rest : Text} (first : a = .ofList (d :: rest)) (other : d ≠ c) (b : String) :
    (a ++ b).toList.head? ≠ some c := by
  simp [first, other]

/-- Only lines about forms begin with a blank. -/
theorem head?_text {l : Line} (other : l.forms? = none) : (l.text false).toList.head? ≠ some ' ' := by
  cases l with
  | simplified p n e => cases other
  | wouldSimplify p n e => cases other
  | skippedDirectory p =>
    rw [text, String.append_assoc]
    exact head?_append_ne rfl (by decide : 'S' ≠ ' ') _
  | skippedFile p =>
    rw [text, String.append_assoc]
    exact head?_append_ne rfl (by decide : 'S' ≠ ' ') _
  | failed p m =>
    simp only [text, String.append_assoc]
    exact head?_append_ne rfl (by decide : 'S' ≠ ' ') _
  | summary scanned changed substitutions failures =>
    cases digits : Nat.toDigits 10 scanned with
    | nil => exact absurd digits Nat.toDigits_ne_nil
    | cons d ds =>
      have digit : d.isDigit := Json.isDigit_of_mem_toDigits (n := scanned) d (by simp [digits])
      simp only [text, Style.paint, Bool.false_eq_true, if_false, String.append_assoc]
      refine head?_append_ne (congrArg String.ofList digits) ?_ _
      rintro rfl
      exact absurd digit (by decide)
  | document j =>
    intro first
    have kind := Json.head?_write j 0 []
    have first : (Json.write 0 j ++ []).head? = some ' ' := by simpa [text, Json.pretty] using first
    rw [first] at kind
    cases j <;> cases kind
  | fatal f =>
    rw [text, String.append_assoc]
    exact head?_append_ne rfl (by decide : 'e' ≠ ' ') _
  | misuse m =>
    simp only [text, String.append_assoc]
    exact head?_append_ne rfl (by decide : 'e' ≠ ' ') _
  | help =>
    unfold text usage
    rw [String.append_assoc, String.append_assoc]
    exact head?_append_ne rfl (by decide : 'U' ≠ ' ') _
  | _ => simp [text]

theorem ofForms_inj {m m' : Mode} {p p' : Path} {n n' : Nat} {e e' : Encoding}
    (same : ofForms m.words p n e = ofForms m'.words p' n' e') : m = m' ∧ n = n' := by
  have ends (r : Text) : Json.EndsNumber (' ' :: r) := by
    intro c first
    cases first
    rfl
  obtain ⟨rest,read⟩ := toList_ofForms m.words p n e
  obtain ⟨rest',read'⟩ := toList_ofForms m'.words p' n' e'
  rw [same, read'] at read
  obtain rfl : m = m' := by
    cases m <;> cases m' <;> simp [Mode.words] at read ⊢
  simp only [List.cons.injEq, List.append_cancel_left_eq, true_and] at read
  exact ⟨rfl,(Json.toDigits_append_inj (ends rest') (ends rest) read).1.symm⟩

/-- What a line tells of forms is what is to be read there. -/
theorem forms?_eq_some_iff {l : Line} {m : Mode} {n : Nat} :
    l.forms? = some (m,n) ↔ ∃ p e, l.text false = ofForms m.words p n e := by
  have reads {m n} (told : l.forms? = some (m,n)) : ∃ p e, l.text false = ofForms m.words p n e := by
    cases l with
    | simplified p _ e =>
      cases told
      exact ⟨p,e,rfl⟩
    | wouldSimplify p _ e =>
      cases told
      exact ⟨p,e,rfl⟩
    | _ => cases told
  refine ⟨reads,?_⟩
  rintro ⟨p,e,text⟩
  cases told : l.forms? with
  | none =>
    obtain ⟨rest,begins⟩ := toList_ofForms m.words p n e
    exact absurd (by rw [text, begins, List.head?_cons]) (head?_text told)
  | some forms =>
    obtain ⟨p',e',text'⟩ := reads told
    obtain ⟨rfl,rfl⟩ := ofForms_inj (text.symm.trans text')
    rfl

theorem text_of_forms? {l : Line} (told : l.forms?.isSome) (color : Bool) :
    l.text color = Style.cyan.paint color (l.text false) := by
  cases l with
  | simplified p n e => rfl
  | wouldSimplify p n e => rfl
  | _ => cases told

def total (lines : List Line) : Nat := lines.foldr (fun l rest => l.count + rest) 0

end Line

/-! ## What a walk tells of forms -/

/-- What may become of a file in a mode: nothing, or what the mode does to the forms in it, and then there are some. -/
inductive Outcome.Fits : Mode → Outcome → Prop
  | unchanged {mode : Mode} {e : Encoding} : Fits mode (.unchanged e)
  | simplified {n : Nat} {e : Encoding} (positive : 1 ≤ n) : Fits .write (.simplified n e)
  | wouldSimplify {n : Nat} {e : Encoding} (positive : 1 ≤ n) : Fits .dryRun (.wouldSimplify n e)

theorem simplify_count_pos {s : Text} (holds : HoldsForm s) : 1 ≤ (simplify s).count :=
  of_decide_eq_true (simplify_changed_iff.2 holds)

theorem FileSystem.simplifyFile_fits {fs : FileSystem} {p : Path} {chain : List Encoding} {mode : Mode} {o : Outcome}
    (done : (fs.simplifyFile p chain mode).result = .ok o) : o.Fits mode := by
  obtain ⟨_,_,_,_,told⟩ := simplifyFile_told done
  rcases told with ⟨_,rfl⟩ | ⟨holds,⟨rfl,rfl⟩ | ⟨rfl,rfl⟩⟩
  · exact .unchanged
  · exact .wouldSimplify (simplify_count_pos holds)
  · exact .simplified (simplify_count_pos holds)

/-! ## Lines and totals -/

namespace Report

variable (report : Report)

/-- The line about a file that was read tells of as many forms as the file's entry. -/
theorem total_lines : Line.total (report.lines false) = report.allSubstitutions := by
  have entries : Line.total (report.entries.filterMap (Entry.line? false) ++ [report.summary]) = report.allSubstitutions := by
    rw [allSubstitutions_eq]
    induction report.entries with
    | nil => rfl
    | cons entry entries ih =>
      cases entry with
      | processed p o =>
        cases o with
        | unchanged e => exact ih.trans (Nat.zero_add _).symm
        | simplified n e => exact congrArg (n + ·) ih
        | wouldSimplify n e => exact congrArg (n + ·) ih
      | _ => exact congrArg (0 + ·) ih
  exact entries

theorem countP_lines {kind : Line → Bool} (other : kind report.summary = false) :
    (report.lines false).countP kind = report.entries.countP fun e => ((e.line? false).map kind).getD false := by
  simp [lines, List.countP_append, List.countP_filterMap, other]

theorem countP_isError : (report.lines false).countP Line.isError = report.failures := by
  rw [countP_lines report rfl]
  apply List.countP_congr
  intro e _
  cases e with
  | processed p o => cases o <;> exact Iff.rfl
  | _ => exact Iff.rfl

/-- Each entry is of a file that was read, or has failed, or has a line about what is left alone. -/
theorem countP_isSkip :
    report.filesScanned + report.failures + (report.lines false).countP Line.isSkip = report.entries.length := by
  have one (e : Entry) : (if e.outcome?.isSome then 1 else 0) + (if e.isFailed then 1 else 0)
      + (if ((e.line? false).map Line.isSkip).getD false then 1 else 0) = 1 := by
    cases e with
    | processed p o => cases o <;> rfl
    | _ => rfl
  rw [countP_lines report rfl, filesScanned_eq, failures]
  induction report.entries with
  | nil => rfl
  | cons e entries ih =>
    rw [List.length_cons, ← ih, List.countP_cons, List.countP_cons, List.countP_cons]
    have := one e
    omega

variable {report} {mode : Mode}

/-- Where forms are told of only if there are some, there are as many lines about forms as files that have changed. -/
theorem countP_forms? (fits : ∀ p o, .processed p o ∈ report.entries → o.Fits mode) :
    (report.lines false).countP (·.forms?.isSome) = report.filesChanged := by
  rw [countP_lines report rfl, filesChanged_eq]
  apply List.countP_congr
  intro e member
  cases e with
  | processed p o =>
    cases fits p o member with
    | unchanged => exact Iff.rfl
    | simplified positive => exact ⟨fun _ => decide_eq_true positive,fun _ => rfl⟩
    | wouldSimplify positive => exact ⟨fun _ => decide_eq_true positive,fun _ => rfl⟩
  | _ => exact Iff.rfl

theorem forms?_of_mem_lines (fits : ∀ p o, .processed p o ∈ report.entries → o.Fits mode) {l : Line}
    (member : l ∈ report.lines false) {m : Mode} {n : Nat} (told : l.forms? = some (m,n)) : m = mode ∧ 1 ≤ n := by
  rcases List.mem_append.1 member with member | last
  · obtain ⟨e,member,line⟩ := List.mem_filterMap.1 member
    cases e with
    | processed p o =>
      cases fits p o member with
      | unchanged => cases line
      | simplified positive =>
        cases line
        cases told
        exact ⟨rfl,positive⟩
      | wouldSimplify positive =>
        cases line
        cases told
        exact ⟨rfl,positive⟩
    | _ =>
      cases line
      cases told
  · obtain rfl := List.mem_singleton.1 last
    cases told

theorem text_of_isError {l : Line} (member : l ∈ report.lines false) (error : l.isError) (color : Bool) :
    ∃ rest, l.text color = Style.red.paint color "Skipping" ++ " " ++ rest := by
  rcases List.mem_append.1 member with member | last
  · obtain ⟨e,_,line⟩ := List.mem_filterMap.1 member
    cases e with
    | failed p m =>
      cases line
      exact ⟨p.shown ++ ": " ++ Style.red.paint color m,by simp only [Line.text, String.append_assoc]⟩
    | processed p o => cases o <;> cases line <;> cases error
    | _ =>
      cases line
      cases error
  · obtain rfl := List.mem_singleton.1 last
    cases error

theorem getLast?_lines (report : Report) : (report.lines false).getLast? = some report.summary := List.getLast?_concat

/-- The lines printed of a report in a mode agree with its totals, which the last of them shows. There is a line about forms for
each file that has changed, in the words of the mode, and the numbers on these lines, none of them zero, come to the sum that is
shown. There is a message for each failure, and failures are shown if there are any. What is read, has failed or is said to be
left alone are all entries. -/
structure AddsUp (report : Report) (mode : Mode) (lines : List Line) : Prop where
  legible : ∀ l ∈ lines, ∀ m n, l.forms? = some (m,n) ↔ ∃ p e, l.text false = Line.ofForms m.words p n e
  painted : ∀ l ∈ lines, l.forms?.isSome → ∀ color, l.text color = Style.cyan.paint color (l.text false)
  forms : ∀ l ∈ lines, ∀ m n, l.forms? = some (m,n) → m = mode ∧ 1 ≤ n
  changed : lines.countP (·.forms?.isSome) = report.filesChanged
  substitutions : Line.total lines % totalLimit = report.substitutions
  failures : lines.countP Line.isError = report.failures
  skipping : ∀ l ∈ lines, l.isError → ∀ color, ∃ rest, l.text color = Style.red.paint color "Skipping" ++ " " ++ rest
  entries : report.filesScanned + report.failures + lines.countP Line.isSkip = report.entries.length
  ends : ∀ color, ∃ shown, lines.getLast?.map (Line.text color) =
      some (Style.green.paint color (toString report.filesScanned ++ " files scanned, " ++ toString report.filesChanged
        ++ " changed, " ++ toString report.substitutions ++ " substitutions") ++ shown) ∧
    (shown = "" ↔ report.failures = 0) ∧
    (report.failures ≠ 0 → shown = " (" ++ Style.red.paint color (toString report.failures) ++ " failed)")

theorem addsUp_lines (fits : ∀ p o, .processed p o ∈ report.entries → o.Fits mode) :
    report.AddsUp mode (report.lines false) where
  legible := fun _ _ _ _ => Line.forms?_eq_some_iff
  painted := fun _ _ told color => Line.text_of_forms? told color
  forms := fun _ member _ _ told => forms?_of_mem_lines fits member told
  changed := countP_forms? fits
  substitutions := by rw [total_lines, substitutions]
  failures := report.countP_isError
  skipping := fun _ member error color => text_of_isError member error color
  entries := report.countP_isSkip
  ends := by
    intro color
    refine ⟨_,by rw [report.getLast?_lines, Option.map_some, summary, Line.text],?_,?_⟩
    · split
      · next zero => simp [zero]
      · next positive => simp [positive]
    · intro positive
      rw [if_neg positive]

end Report

/-! ## Walks -/

theorem walk_fits {fs : FileSystem} {s : Settings} {report : Report} (ended : (fs.walk s).result = .ok report) {p : Path}
    {o : Outcome} (member : .processed p o ∈ report.entries) : o.Fits s.mode := by
  obtain ⟨earlier,later,split⟩ := List.append_of_mem member
  exact FileSystem.simplifyFile_fits (FileSystem.walk_processed ended split)

/-- What is printed of a walk that succeeds agrees with the totals at its end. Their sum of counts is kept in 64 bits, and is
the whole sum unless more has been read than three times what 64 bits can tell. -/
theorem walk_lines_add_up {fs : FileSystem} {s : Settings} {report : Report} (ended : (fs.walk s).result = .ok report) :
    report.AddsUp s.mode (report.lines false) ∧
    (fs.bytesRead s.encodings s.mode report.entries < 3 * Report.totalLimit →
      Line.total (report.lines false) = report.substitutions) ∧
    ∀ o skip, fs.skipSet o.dirs o.skipFiles = .ok skip → o.settings skip = s → o.run.json = false → o.run.quiet = false →
      (fs.runWalk o).lines = report.lines false := by
  refine ⟨Report.addsUp_lines fun p o member => walk_fits ended member,?_,?_⟩
  · intro bounded
    have third : 3 * report.allSubstitutions ≤ fs.bytesRead s.encodings s.mode report.entries :=
      (FileSystem.walk_counts ended).le report.root
    rw [Report.total_lines, Report.substitutions_eq (by omega)]
  · rintro o skip skips rfl plain loud
    simp [FileSystem.runWalk, skips, ended, plain, loud]

/-- Of the four entries one is told of as simplified, one as failed and one as left alone; of the file that is met a second
time, already without a form, nothing is said. -/
theorem sample_walk_lines_add_up : (Sample.disk.walk Sample.settings).result = .ok Sample.report ∧
    Line.total (Sample.report.lines false) = Sample.report.substitutions ∧
    Sample.report.filesScanned + Sample.report.failures + (Sample.report.lines false).countP Line.isSkip = 4 ∧
    (Sample.disk.runWalk (Sample.topOptions false false)).stdout false =
      "  › simplified 1 empty parameter list(s) in /a.c (from latin1)\nSkipping directory: /libs\n"
        ++ "2 files scanned, 1 changed, 1 substitutions (1 failed)\n" ∧
    (Sample.disk.runWalk (Sample.topOptions false false)).stderr .silent false =
      "Skipping /c.c: i/o error on /c.c: Permission denied (os error 13)\n" := by
  obtain ⟨adds,whole,printed⟩ := walk_lines_add_up Sample.walk_result
  have lines : (Sample.disk.runWalk (Sample.topOptions false false)).lines = Sample.report.lines false :=
    printed _ Sample.settings.skip (Sample.topOptions_skipSet false false) rfl rfl rfl
  refine ⟨Sample.walk_result,whole (by decide +kernel),adds.entries,?_,?_⟩
  · rw [Finished.stdout, lines]
    decide +kernel
  · rw [Finished.stderr, lines]
    decide +kernel

end ParamTidy

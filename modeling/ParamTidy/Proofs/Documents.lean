import Mathlib.Data.List.Forall2
import ParamTidy.Proofs.Check
import ParamTidy.Proofs.WrittenForm

/-!
# What a document tells of a report

A report is printed as a document if all its paths are text, and then nothing of it is lost: no two reports are printed alike,
and the totals that are printed beside the entries are those counted anew from them (`documents_lose_nothing`).
-/

namespace ParamTidy

/-! ## Reading a document -/

namespace Json

def member? (key : String) : Json → Option Json
  | object members => members.lookup key.toList
  | _ => none

def text? (key : String) (j : Json) : Option Text :=
  match j.member? key with
  | some (string s) => some s
  | _ => none

/-- The number that a member reads, or 0 if there is none. -/
def count (key : String) (j : Json) : Nat :=
  match j.member? key with
  | some (number n) => n
  | _ => 0

def isOfKind (kind : String) (entry : Json) : Bool := entry.text? "kind" == some kind.toList

def substitutions (entry : Json) : Nat :=
  match entry.member? "outcome" with
  | some outcome => outcome.count "substitutions"
  | none => 0

/-- The totals of a document are those counted anew from the entries in it. -/
structure SumsUp (document : Json) (entries : List Json) : Prop where
  listed : document.member? "entries" = some (.array entries)
  scanned : document.member? "files_scanned" = some (.number (entries.countP (isOfKind "processed")))
  changed : document.member? "files_changed" = some (.number (entries.countP (0 < ·.substitutions)))
  substitutions : document.member? "substitutions" = some (.number (entries.foldr (fun e total => e.substitutions + total) 0))
  failures : document.member? "failures" = some (.number (entries.countP (isOfKind "failed")))

end Json

/-! ## Outcomes and entries -/

theorem Encoding.label_injective : Function.Injective Encoding.label := by
  intro e e' same
  cases e <;> cases e' <;> first | rfl | exact absurd same (by decide)

theorem Outcome.document_injective : Function.Injective Outcome.document := by
  intro o o' same
  cases o with
  | unchanged e =>
    cases o' with
    | unchanged e' =>
      have labels : e.label = e'.label := by simpa [document, encoding, String.toList_inj] using same
      exact congrArg unchanged (Encoding.label_injective labels)
    | _ => simp [document] at same
  | simplified n e =>
    cases o' with
    | simplified n' e' =>
      have both : e.label = e'.label ∧ n = n' := by simpa [document, encoding, String.toList_inj] using same
      exact congrArg₂ simplified both.2 (Encoding.label_injective both.1)
    | _ => simp [document] at same
  | wouldSimplify n e =>
    cases o' with
    | wouldSimplify n' e' =>
      have both : e.label = e'.label ∧ n = n' := by simpa [document, encoding, String.toList_inj] using same
      exact congrArg₂ wouldSimplify both.2 (Encoding.label_injective both.1)
    | _ => simp [document] at same

theorem Path.eq_of_text? {p p' : Path} {t : Text} (spelled : p.text? = some t) (spelled' : p'.text? = some t) : p = p' := by
  have bytes := Utf8.decode?_eq_some_iff.1 spelled
  have bytes' := Utf8.decode?_eq_some_iff.1 spelled'
  cases p
  cases p'
  exact congrArg Path.mk (bytes.trans bytes'.symm)

theorem Entry.document?_path {e : Entry} {d : Json} (told : e.document? = some d) :
    ∃ t, e.path.text? = some t ∧ d.text? "path" = some t := by
  obtain ⟨t,spelled,rfl⟩ := Option.map_eq_some_iff.1 told
  refine ⟨t,spelled,?_⟩
  cases e <;> rfl

theorem Entry.eq_of_document? {e e' : Entry} {d : Json} (told : e.document? = some d) (told' : e'.document? = some d) :
    e = e' := by
  have paths : e.path = e'.path := by
    obtain ⟨t,spelled,stands⟩ := document?_path told
    obtain ⟨t',spelled',stands'⟩ := document?_path told'
    rw [stands, Option.some.injEq] at stands'
    exact Path.eq_of_text? spelled (stands' ▸ spelled')
  obtain ⟨t,_,rfl⟩ := Option.map_eq_some_iff.1 told
  obtain ⟨t',_,same⟩ := Option.map_eq_some_iff.1 told'
  cases e with
  | skippedDirectory p =>
    cases e' with
    | skippedDirectory p' => exact congrArg skippedDirectory paths
    | _ => simp at same
  | skippedFile p =>
    cases e' with
    | skippedFile p' => exact congrArg skippedFile paths
    | _ => simp at same
  | processed p o =>
    cases e' with
    | processed p' o' =>
      have outcomes : o'.document = o.document ∧ t' = t := by simpa using same
      exact congrArg₂ processed paths (Outcome.document_injective outcomes.1.symm)
    | _ => simp at same
  | failed p m =>
    cases e' with
    | failed p' m' =>
      have messages : m' = m ∧ t' = t := by simpa [String.toList_inj] using same
      exact congrArg₂ failed paths messages.1.symm
    | _ => simp at same

theorem Entry.document?_isOfKind {e : Entry} {d : Json} (told : e.document? = some d) :
    d.isOfKind "processed" = e.outcome?.isSome ∧ d.isOfKind "failed" = e.isFailed := by
  obtain ⟨t,_,rfl⟩ := Option.map_eq_some_iff.1 told
  cases e <;> exact ⟨rfl,rfl⟩

def Entry.substitutions (e : Entry) : Nat := (e.outcome?.map Outcome.substitutions).getD 0

theorem Entry.document?_substitutions {e : Entry} {d : Json} (told : e.document? = some d) :
    d.substitutions = e.substitutions := by
  obtain ⟨t,_,rfl⟩ := Option.map_eq_some_iff.1 told
  cases e with
  | processed p o => cases o <;> rfl
  | _ => rfl

/-! ## Lists of entries -/

section
variable {α β γ : Type} {f : α → Option β} {xs : List α} {ys : List β}

theorem forall₂_of_mapM (mapped : xs.mapM f = some ys) : List.Forall₂ (fun x y => f x = some y) xs ys := by
  induction xs generalizing ys with
  | nil =>
    cases mapped
    exact .nil
  | cons x xs ih =>
    simp only [List.mapM_cons, Option.bind_eq_bind, Option.bind_eq_some_iff] at mapped
    obtain ⟨y,first,ys',others,same⟩ := mapped
    cases same
    exact .cons first (ih others)

theorem map_eq_of_mapM (mapped : xs.mapM f = some ys) {g : α → γ} {h : β → γ} (agree : ∀ x y, f x = some y → h y = g x) :
    ys.map h = xs.map g := by
  have paired := forall₂_of_mapM mapped
  clear mapped
  induction paired with
  | nil => rfl
  | cons first others ih => rw [List.map_cons, List.map_cons, agree _ _ first, ih]

theorem countP_eq_of_mapM (mapped : xs.mapM f = some ys) {p : α → Bool} {q : β → Bool}
    (agree : ∀ x y, f x = some y → q y = p x) : ys.countP q = xs.countP p := by
  calc ys.countP q = (ys.map q).countP id := by rw [List.countP_map, Function.id_comp]
    _ = (xs.map p).countP id := by rw [map_eq_of_mapM mapped agree]
    _ = xs.countP p := by rw [List.countP_map, Function.id_comp]

end

/-! ## Reports -/

theorem Report.filesScanned_eq (report : Report) : report.filesScanned = report.entries.countP fun e => e.outcome?.isSome :=
  List.length_filterMap_eq_countP ..

theorem Report.filesChanged_eq (report : Report) : report.filesChanged = report.entries.countP (0 < ·.substitutions) := by
  rw [filesChanged, outcomes, List.countP_filterMap]
  apply List.countP_congr
  intro e _
  cases e <;> exact Iff.rfl

theorem Report.allSubstitutions_eq (report : Report) :
    report.allSubstitutions = (report.entries.map Entry.substitutions).foldr (· + ·) 0 := by
  rw [allSubstitutions, outcomes]
  induction report.entries with
  | nil => rfl
  | cons e entries ih =>
    rw [List.map_cons, List.foldr_cons, ← ih]
    cases e with
    | processed p o => rfl
    | _ => exact (Nat.zero_add _).symm

theorem Report.document?_eq_some_iff {report : Report} {d : Json} : report.document? = some d ↔
    ∃ t entries, report.root.text? = some t ∧ report.entries.mapM Entry.document? = some entries ∧ .object
      [("entries".toList,.array entries),("failures".toList,.number report.failures),
        ("files_changed".toList,.number report.filesChanged),("files_scanned".toList,.number report.filesScanned),
        ("root".toList,.string t),("substitutions".toList,.number report.substitutions)] = d := by
  simp only [Report.document?, Option.bind_eq_bind, Option.bind_eq_some_iff, Option.pure_def, Option.some.injEq]
  constructor
  · rintro ⟨t,spelled,entries,told,same⟩
    exact ⟨t,entries,spelled,told,same⟩
  · rintro ⟨t,entries,spelled,told,same⟩
    exact ⟨t,spelled,entries,told,same⟩

/-- Nothing of a report is lost in its document. -/
theorem Report.eq_of_document? {report report' : Report} {d : Json} (told : report.document? = some d)
    (told' : report'.document? = some d) : report = report' := by
  obtain ⟨t,entries,spelled,listed,rfl⟩ := document?_eq_some_iff.1 told
  obtain ⟨t',entries',spelled',listed',same⟩ := document?_eq_some_iff.1 told'
  simp only [Json.object.injEq, List.cons.injEq, Prod.mk.injEq, Json.array.injEq, Json.string.injEq, true_and] at same
  obtain ⟨rfl,_,_,_,rfl,_⟩ := same
  have roots : report.root = report'.root := Path.eq_of_text? spelled spelled'
  have known : Relator.LeftUnique fun (e : Entry) d => e.document? = some d := fun e e' d told told' =>
    Entry.eq_of_document? told told'
  have entries : report.entries = report'.entries :=
    List.left_unique_forall₂' known (forall₂_of_mapM listed) (forall₂_of_mapM listed')
  cases report
  cases report'
  exact congrArg₂ Report.mk roots entries

/-- The totals of a document may be counted anew from its entries, as long as they are kept whole. -/
theorem Report.exists_sumsUp {report : Report} {d : Json} (told : report.document? = some d)
    (bounded : report.allSubstitutions < totalLimit) : ∃ entries, d.SumsUp entries := by
  obtain ⟨t,entries,_,listed,rfl⟩ := document?_eq_some_iff.1 told
  have scanned : entries.countP (Json.isOfKind "processed") = report.filesScanned := by
    rw [report.filesScanned_eq]
    exact countP_eq_of_mapM listed fun e d told => (Entry.document?_isOfKind told).1
  have changed : entries.countP (0 < ·.substitutions) = report.filesChanged := by
    rw [report.filesChanged_eq]
    exact countP_eq_of_mapM listed fun e d told => by rw [Entry.document?_substitutions told]
  have substitutions : entries.foldr (fun e total => e.substitutions + total) 0 = report.substitutions := by
    rw [substitutions_eq bounded, report.allSubstitutions_eq,
      ← map_eq_of_mapM listed fun e d told => Entry.document?_substitutions told, List.foldr_map]
  have failures : entries.countP (Json.isOfKind "failed") = report.failures :=
    countP_eq_of_mapM listed fun e d told => (Entry.document?_isOfKind told).2
  refine ⟨entries,rfl,?_,?_,?_,?_⟩
  · rw [scanned]
    rfl
  · rw [changed]
    rfl
  · rw [substitutions]
    rfl
  · rw [failures]
    rfl

/-! ## What is printed -/

theorem Finished.stdout_ofDocument? (exitCode : Nat) (log : List LogLine) (d : Json) (after : FileSystem) (color : Bool) :
    (Finished.ofDocument? exitCode log (some d) after).stdout color = .ofList d.pretty ++ "\n" := by
  simp [ofDocument?, stdout, Line.channel, Line.isError, Line.text]

theorem Json.eq_of_printed {d d' : Json} (same : String.ofList d.pretty ++ "\n" = .ofList d'.pretty ++ "\n") : d = d' := by
  apply pretty_injective
  simpa using congrArg String.toList same

/-- A report has a document exactly if its root and all its paths are text. Two such reports of which the same is printed are
the same: no entry, no order, no kind, no path, no message, no outcome, no encoding and no number is lost. The totals that are
printed are those counted anew from the printed entries, as long as the sum of the counts is kept whole. -/
theorem documents_lose_nothing :
    (∀ report : Report, report.document?.isSome ↔ report.IsText) ∧
      (∀ (report report' : Report) (exitCode exitCode' : Nat) (log log' : List LogLine) (after after' : FileSystem)
        (color color' : Bool), report.IsText → report'.IsText →
        (Finished.ofDocument? exitCode log report.document? after).stdout color =
          (Finished.ofDocument? exitCode' log' report'.document? after').stdout color' → report = report') ∧
      ∀ report : Report, report.IsText → report.allSubstitutions < Report.totalLimit →
        ∃ d entries, report.document? = some d ∧ d.SumsUp entries ∧ ∀ exitCode log after color,
          (Finished.ofDocument? exitCode log report.document? after).stdout color = .ofList d.pretty ++ "\n" := by
  refine ⟨fun report => Report.document?_isSome_iff,?_,?_⟩
  · intro report report' exitCode exitCode' log log' after after' color color' text text' same
    obtain ⟨d,told⟩ := Option.isSome_iff_exists.1 (Report.document?_isSome_iff.2 text)
    obtain ⟨d',told'⟩ := Option.isSome_iff_exists.1 (Report.document?_isSome_iff.2 text')
    rw [told, told', Finished.stdout_ofDocument?, Finished.stdout_ofDocument?] at same
    exact Report.eq_of_document? told (Json.eq_of_printed same ▸ told')
  · intro report text bounded
    obtain ⟨d,told⟩ := Option.isSome_iff_exists.1 (Report.document?_isSome_iff.2 text)
    obtain ⟨entries,sums⟩ := Report.exists_sumsUp told bounded
    refine ⟨d,entries,told,sums,fun exitCode log after color => ?_⟩
    rw [told, Finished.stdout_ofDocument?]

namespace Sample

/-- A report with paths and a message that want escapes. -/
def failing (message : String) : Report where
  root := .ofString "/w"
  entries := [.failed (.ofString "/w/\"a\\b\".c") message,.processed (.ofString "/w/größe.c") (.simplified 2 .latin1),
    .processed (.ofString "/w/z.h") (.unchanged .utf8),.skippedDirectory (.ofString "/w/libs")]

theorem failing_isText (message : String) : (failing message).IsText := by
  constructor
  · show (Path.ofString "/w").text?.isSome
    decide +kernel
  · show ∀ p ∈ [Path.ofString "/w/\"a\\b\".c",.ofString "/w/größe.c",.ofString "/w/z.h",.ofString "/w/libs"], p.text?.isSome
    decide +kernel

end Sample

/-- A line break in a message is not printed like the backslash and the letter that it is written as. -/
theorem sample_documents_lose_nothing : (Sample.failing "\n").document?.isSome ∧
    (∀ color, (Finished.ofDocument? 0 [] (Sample.failing "\n").document? .empty).stdout color ≠
      (Finished.ofDocument? 0 [] (Sample.failing "\\n").document? .empty).stdout color) ∧
    ∃ d entries, (Sample.failing "\n").document? = some d ∧ d.SumsUp entries := by
  obtain ⟨exists_iff,faithful,sums⟩ := documents_lose_nothing
  refine ⟨(exists_iff _).2 (Sample.failing_isText _),?_,?_⟩
  · intro color same
    have := faithful _ _ 0 0 [] [] .empty .empty color color (Sample.failing_isText _) (Sample.failing_isText _) same
    exact absurd this (by decide +kernel)
  · obtain ⟨d,entries,told,sumsUp,_⟩ := sums (Sample.failing "\n") (Sample.failing_isText _) (by decide +kernel)
    exact ⟨d,entries,told,sumsUp⟩

end ParamTidy

import ParamTidy.Proofs.Decoding
import ParamTidy.Proofs.Documents
import ParamTidy.Proofs.WalkLog

/-!
# How much is counted

A form takes three characters, and no encoding makes more characters of a file than it has bytes: so no more is counted in a
file than a third of what is read of it (`Outcome.CountedIn.le`), and no more on a whole walk than a third of all that it reads
(`walk_counts_within`). Until that is as much as 64 bits can tell, the sum of the counts is kept whole.
-/

namespace ParamTidy

/-! ## Forms, characters and bytes -/

/-- A form takes two parentheses and something between them. -/
theorem three_mul_simplify_count_le (s : Text) : 3 * (simplify s).count ≤ s.length := by
  induction s using simplify_induction with
  | nil => simp
  | form s rest read ih =>
    obtain ⟨inside,isInside,rfl⟩ := afterForm?_eq_some_iff.1 read
    have := List.length_pos_iff.2 isInside.ne_nil
    simp only [simplify_form read, Simplified.replace, List.length_cons, List.length_append]
    omega
  | opening s read ih =>
    simp only [simplify_open read, Simplified.keep, List.length_cons]
    omega
  | other c s paren ih =>
    simp only [simplify_other paren, Simplified.keep, List.length_cons]
    omega

/-- No encoding makes more characters of some bytes than they are. -/
theorem Encoding.length_le_of_decode? {e : Encoding} {bytes : Bytes} {t : Text} (read : e.decode? bytes = some t) :
    t.length ≤ bytes.length := by
  by_cases utf8 : e = .utf8
  · subst utf8
    rw [Utf8.decode?_eq_some_iff.1 read]
    exact Utf8.length_le_length_encode t
  · obtain ⟨char,_,_,reads⟩ := decode?_eq_map utf8
    rw [reads, Option.some.injEq] at read
    rw [← read, List.length_map]

/-- The forms that an outcome tells of are those of some bytes in the encoding that it names. -/
def Outcome.CountedIn (o : Outcome) (bytes : Bytes) : Prop :=
  ∃ t, o.encoding.decode? bytes = some t ∧ o.substitutions = (simplify t).count

theorem Outcome.CountedIn.le {o : Outcome} {bytes : Bytes} (counted : o.CountedIn bytes) :
    3 * o.substitutions ≤ bytes.length := by
  obtain ⟨t,read,same⟩ := counted
  calc 3 * o.substitutions = 3 * (simplify t).count := by rw [same]
    _ ≤ t.length := three_mul_simplify_count_le t
    _ ≤ bytes.length := Encoding.length_le_of_decode? read

/-! ## What is read -/

def Entry.content? (now : FileSystem) : Entry → Option Bytes
  | processed p _ | failed p _ => (now.read p).toOption
  | skippedDirectory _ | skippedFile _ => none

def FileSystem.contentsRead (chain : List Encoding) (mode : Mode) : FileSystem → List Entry → List Bytes
  | _, [] => []
  | now, entry :: entries => (entry.content? now).toList ++ contentsRead chain mode (entry.leaves chain mode now) entries

def FileSystem.bytesRead (fs : FileSystem) (chain : List Encoding) (mode : Mode) (entries : List Entry) : Nat :=
  (fs.contentsRead chain mode entries).flatten.length

theorem FileSystem.bytesRead_cons (fs : FileSystem) (chain : List Encoding) (mode : Mode) (entry : Entry) (entries : List Entry) :
    fs.bytesRead chain mode (entry :: entries) =
      ((entry.content? fs).map List.length).getD 0 + (entry.leaves chain mode fs).bytesRead chain mode entries := by
  rw [bytesRead, contentsRead, List.flatten_append, List.length_append, ← bytesRead]
  cases entry.content? fs <;> simp

theorem Report.allSubstitutions_cons (root : Path) (entry : Entry) (entries : List Entry) :
    Report.allSubstitutions ⟨root,entry :: entries⟩ = entry.substitutions + Report.allSubstitutions ⟨root,entries⟩ := by
  rw [allSubstitutions_eq, allSubstitutions_eq, List.map_cons, List.foldr_cons]

theorem Report.allSubstitutions_le_append (root : Path) (earlier later : List Entry) :
    Report.allSubstitutions ⟨root,earlier⟩ ≤ Report.allSubstitutions ⟨root,earlier ++ later⟩ := by
  induction earlier with
  | nil => exact Nat.zero_le _
  | cons entry earlier ih =>
    rw [List.cons_append, allSubstitutions_cons, allSubstitutions_cons]
    omega

/-- What entries tell of files that were read is counted in what was read for them, each file as it was at that moment. -/
def FileSystem.Counts (fs : FileSystem) (chain : List Encoding) (mode : Mode) (entries : List Entry) : Prop :=
  ∀ earlier p o later, entries = earlier ++ .processed p o :: later →
    ∃ bytes, (fs.afterEntries chain mode earlier).read p = .ok bytes ∧ o.CountedIn bytes

namespace FileSystem

variable {fs : FileSystem} {chain : List Encoding} {mode : Mode}

theorem Counts.tail {entry : Entry} {entries : List Entry} (counts : fs.Counts chain mode (entry :: entries)) :
    (entry.leaves chain mode fs).Counts chain mode entries := by
  intro earlier p o later split
  exact counts (entry :: earlier) p o later (congrArg (List.cons entry) split)

theorem Counts.head {entry : Entry} {entries : List Entry} (counts : fs.Counts chain mode (entry :: entries)) :
    3 * entry.substitutions ≤ ((entry.content? fs).map List.length).getD 0 := by
  cases entry with
  | processed p o =>
    obtain ⟨bytes,read,counted⟩ := counts [] p o entries rfl
    have read : fs.read p = .ok bytes := read
    rw [Entry.content?, read]
    exact counted.le
  | _ => exact Nat.zero_le _

/-- All counts together are no more than a third of all that is read. -/
theorem Counts.le {entries : List Entry} (counts : fs.Counts chain mode entries) (root : Path) :
    3 * Report.allSubstitutions ⟨root,entries⟩ ≤ fs.bytesRead chain mode entries := by
  induction entries generalizing fs with
  | nil => exact Nat.zero_le _
  | cons entry entries ih =>
    have head := counts.head
    have tail := ih counts.tail
    rw [Report.allSubstitutions_cons, bytesRead_cons]
    omega

theorem simplifyFile_counted {p : Path} {o : Outcome} (done : (fs.simplifyFile p chain mode).result = .ok o) :
    ∃ bytes, fs.read p = .ok bytes ∧ o.CountedIn bytes := by
  obtain ⟨bytes,reading,read,decoded,told⟩ := simplifyFile_told done
  obtain ⟨_,_,_,_,decodes⟩ := Encoding.read?_eq_some_iff.1 decoded
  rcases told with ⟨free,rfl⟩ | ⟨_,⟨_,rfl⟩ | ⟨_,rfl⟩⟩
  · exact ⟨bytes,read,reading.text,decodes,(simplify_count_eq_zero_iff.2 free).symm⟩
  · exact ⟨bytes,read,reading.text,decodes,rfl⟩
  · exact ⟨bytes,read,reading.text,decodes,rfl⟩

theorem walk_counts {s : Settings} {report : Report} (ended : (fs.walk s).result = .ok report) :
    fs.Counts s.encodings s.mode report.entries :=
  fun _ _ _ _ split => simplifyFile_counted (walk_processed ended split)

end FileSystem

/-! ## Walks -/

/-- A report counts within what has been read: in each file no more than a third of its bytes, and on the whole no more than a
third of all bytes. So as long as 64 bits can tell these, no sum of counts on the way is beyond them, and the sum that is kept
is the whole one. -/
structure Report.CountsWithin (report : Report) (fs : FileSystem) (s : Settings) : Prop where
  each : ∀ earlier p o later, report.entries = earlier ++ .processed p o :: later →
    ∃ bytes, (fs.afterEntries s.encodings s.mode earlier).read p = .ok bytes ∧ o.CountedIn bytes ∧
      3 * o.substitutions ≤ bytes.length
  together : 3 * report.allSubstitutions ≤ fs.bytesRead s.encodings s.mode report.entries
  onTheWay : fs.bytesRead s.encodings s.mode report.entries < totalLimit → ∀ earlier, earlier <+: report.entries →
    Report.allSubstitutions ⟨report.root,earlier⟩ < totalLimit
  kept : fs.bytesRead s.encodings s.mode report.entries < totalLimit → report.substitutions = report.allSubstitutions ∧
    3 * report.substitutions ≤ fs.bytesRead s.encodings s.mode report.entries

/-- On a walk that succeeds no more is counted than a third of what is read, in each file and on the whole. -/
theorem walk_counts_within {fs : FileSystem} {s : Settings} {report : Report} (ended : (fs.walk s).result = .ok report) :
    report.CountsWithin fs s := by
  have counts := FileSystem.walk_counts ended
  have together : 3 * report.allSubstitutions ≤ fs.bytesRead s.encodings s.mode report.entries := counts.le report.root
  constructor
  · intro earlier p o later split
    obtain ⟨bytes,read,counted⟩ := counts earlier p o later split
    exact ⟨bytes,read,counted,counted.le⟩
  · exact together
  · rintro bounded earlier ⟨later,split⟩
    have sum := Report.allSubstitutions_le_append report.root earlier later
    rw [split] at sum
    have sum : Report.allSubstitutions ⟨report.root,earlier⟩ ≤ report.allSubstitutions := sum
    omega
  · intro bounded
    have whole := Report.substitutions_eq (r := report) (by omega)
    exact ⟨whole,by rwa [whole]⟩

/-- The file that two links lead to is read twice, the second time as it has been rewritten. -/
theorem sample_walk_counts_within : (Sample.disk.walk Sample.settings).result = .ok Sample.report ∧
    Sample.disk.contentsRead Sample.settings.encodings Sample.settings.mode Sample.report.entries =
      [Sample.form,[0xC3, 0xA9, 0x28, 0x29],Sample.form] ∧
    Sample.report.substitutions = Sample.report.allSubstitutions ∧ 3 * Sample.report.substitutions ≤ 18 := by
  have within := walk_counts_within Sample.walk_result
  have read : Sample.disk.contentsRead Sample.settings.encodings Sample.settings.mode Sample.report.entries =
      [Sample.form,[0xC3, 0xA9, 0x28, 0x29],Sample.form] := by decide +kernel
  have total : Sample.disk.bytesRead Sample.settings.encodings Sample.settings.mode Sample.report.entries = 18 := by
    rw [FileSystem.bytesRead, read]
    rfl
  obtain ⟨whole,third⟩ := within.kept (by rw [total]; decide)
  rw [total] at third
  exact ⟨Sample.walk_result,read,whole,third⟩

end ParamTidy

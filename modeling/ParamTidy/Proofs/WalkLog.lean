import ParamTidy.Proofs.ReportCoverage

/-!
# The log and the report

The log of a walk tells what its report tells, entry by entry (`walk_logs`). It tells more only of files that are not in UTF-8:
before what it says of such a file it notes each time that UTF-8 has been tried on it in vain, and `story` says when that is,
with each file as the walk has made it until then. `perform_log` is one visit, `performAll_log` the run.
-/

namespace ParamTidy

/-! ## Lines of the log -/

/-- A line that notes that an encoding has been tried in vain. -/
def LogLine.isRefusal : LogLine → Bool
  | refused _ => true
  | _ => false

/-- What is logged of an entry; of a file that was left as it is nothing is. -/
def Entry.logLine? : Entry → Option LogLine
  | skippedDirectory p => some (.skippingDirectory p)
  | skippedFile p => some (.skippingFile p)
  | failed _ m => some (.warning m)
  | processed p (.simplified n e) => some (.simplified n p e)
  | processed _ (.unchanged _) | processed _ (.wouldSimplify _ _) => none

def Entry.warning? : Entry → Option LogLine
  | failed _ m => some (.warning m)
  | _ => none

/-- What is noted of bytes that are not UTF-8: one line for each time that UTF-8 is tried before another encoding is. -/
def refusalLines (chain : List Encoding) (bytes : Bytes) : List LogLine :=
  if Utf8.wellFormed bytes then [] else List.replicate (chain.takeWhile (· = .utf8)).length (.refused .utf8)

/-- What is noted of the file of an entry. A file that is excluded or cannot be read is not tried; one that can be read and
fails, fails by its encoding or when it is written. -/
def Entry.refusals (chain : List Encoding) (now : FileSystem) : Entry → List LogLine
  | processed p _ | failed p _ =>
    match now.read p with
    | .ok bytes => refusalLines chain bytes
    | .error _ => []
  | skippedDirectory _ | skippedFile _ => []

def Entry.leaves (chain : List Encoding) (mode : Mode) (now : FileSystem) : Entry → FileSystem
  | processed p _ | failed p _ => (now.simplifyFile p chain mode).after
  | skippedDirectory _ | skippedFile _ => now

def FileSystem.afterEntries (chain : List Encoding) (mode : Mode) : FileSystem → List Entry → FileSystem :=
  List.foldl fun now entry => entry.leaves chain mode now

/-- The log of some entries one after the other. -/
def FileSystem.story (chain : List Encoding) (mode : Mode) : FileSystem → List Entry → List LogLine
  | _, [] => []
  | now, entry :: entries =>
    entry.refusals chain now ++ entry.logLine?.toList ++ story chain mode (entry.leaves chain mode now) entries

theorem map_refusals (chain : List Encoding) (bytes : Bytes) :
    (Encoding.refusals chain bytes).map .refused = refusalLines chain bytes := by
  have refuses (e : Encoding) : (e.decode? bytes).isNone = (decide (e = .utf8) && !Utf8.wellFormed bytes) := by
    rw [Bool.eq_iff_iff, Encoding.decode?_isNone]
    simp
  simp only [Encoding.refusals, refusalLines, refuses]
  by_cases formed : Utf8.wellFormed bytes
  · cases chain <;> simp [formed]
  · simp only [formed, Bool.not_false, Bool.and_true, Bool.false_eq_true, if_false]
    rw [List.eq_replicate_iff]
    refine ⟨by simp,?_⟩
    intro line member
    obtain ⟨e,taken,rfl⟩ := List.mem_map.1 member
    have utf8 := List.all_eq_true.1 List.all_takeWhile e taken
    rw [of_decide_eq_true utf8]

/-! ## Deleting the notes -/

theorem filter_refusals (entry : Entry) (chain : List Encoding) (now : FileSystem) :
    (entry.refusals chain now).filter (!·.isRefusal) = [] := by
  have lines (bytes : Bytes) : (refusalLines chain bytes).filter (!·.isRefusal) = [] := by
    unfold refusalLines
    split
    · rfl
    · simp [LogLine.isRefusal]
  cases entry with
  | processed p o =>
    simp only [Entry.refusals]
    split
    · exact lines _
    · rfl
  | failed p m =>
    simp only [Entry.refusals]
    split
    · exact lines _
    · rfl
  | _ => rfl

theorem filter_logLine? (entry : Entry) : entry.logLine?.toList.filter (!·.isRefusal) = entry.logLine?.toList := by
  cases entry with
  | processed p o => cases o <;> rfl
  | _ => rfl

namespace FileSystem

/-- Without the notes the log of some entries is one line for each that there is anything to say of. -/
theorem filter_story (chain : List Encoding) (mode : Mode) (now : FileSystem) (entries : List Entry) :
    (now.story chain mode entries).filter (!·.isRefusal) = entries.filterMap Entry.logLine? := by
  induction entries generalizing now with
  | nil => rfl
  | cons entry entries ih =>
    rw [story, List.filter_append, List.filter_append, filter_refusals, filter_logLine?, ih, List.nil_append,
      List.filterMap_cons]
    cases entry.logLine? <;> rfl

/-- Among what is logged of some entries the warnings are about those that failed. -/
theorem filter_story_warn (chain : List Encoding) (mode : Mode) (now : FileSystem) (entries : List Entry) :
    (now.story chain mode entries).filter (·.level = .warn) = entries.filterMap Entry.warning? := by
  have noted (l : LogLine) : (decide (l.level = .warn) && !l.isRefusal) = decide (l.level = .warn) := by cases l <;> rfl
  have warns (e : Entry) : e.logLine?.filter (·.level = .warn) = e.warning? := by
    cases e with
    | processed p o => cases o <;> rfl
    | _ => rfl
  calc (now.story chain mode entries).filter (·.level = .warn)
    _ = ((now.story chain mode entries).filter (!·.isRefusal)).filter (·.level = .warn) := by
      rw [List.filter_filter]
      simp only [noted]
    _ = entries.filterMap Entry.warning? := by
      rw [filter_story, List.filter_filterMap]
      simp only [warns]

/-! ## Visits and runs -/

/-- What a visit logs and leaves can be told from its entry. -/
theorem perform_log (now : FileSystem) {v : Visit} (chain : List Encoding) (mode : Mode)
    (closed : ∀ p e, v = .unlistable p e → ∃ e', now.read p = .error e') :
    (now.perform chain mode v).log = (now.perform chain mode v).entry.refusals chain now
        ++ (now.perform chain mode v).entry.logLine?.toList ∧
      (now.perform chain mode v).after = (now.perform chain mode v).entry.leaves chain mode now := by
  cases v with
  | pruned p => exact ⟨rfl,rfl⟩
  | excluded p => exact ⟨rfl,rfl⟩
  | unlistable p e =>
    obtain ⟨e',refused⟩ := closed p e rfl
    have after : (now.simplifyFile p chain mode).after = now := by simp [simplifyFile, refused]
    simp [perform, Step.ofFailure, Failure.path, Entry.refusals, Entry.logLine?, Entry.leaves, refused, after]
  | candidate p =>
    have treated := now.simplifyFile_treated p chain mode
    rw [perform]
    generalize same : now.simplifyFile p chain mode = attempt at treated
    cases treated with
    | unreadable read =>
      simp [Step.ofAttempt, Step.ofFailure, Failure.path, Entry.refusals, Entry.logLine?, Entry.leaves, read, same]
    | undecodable read decoded =>
      simp [Step.ofAttempt, Step.ofFailure, Failure.path, Entry.refusals, Entry.logLine?, Entry.leaves, read, same,
        map_refusals]
    | unchanged read decoded free =>
      simp [Step.ofAttempt, Entry.refusals, Entry.logLine?, Entry.leaves, read, same, map_refusals]
    | foreseen read decoded holds dry =>
      simp [Step.ofAttempt, Entry.refusals, Entry.logLine?, Entry.leaves, read, same, map_refusals]
    | unwritable read decoded holds writing write =>
      simp [Step.ofAttempt, Step.ofFailure, Failure.path, Entry.refusals, Entry.logLine?, Entry.leaves, read, same,
        map_refusals]
    | simplified read decoded holds writing write =>
      simp [Step.ofAttempt, Entry.refusals, Entry.logLine?, Entry.leaves, read, same, map_refusals]

theorem closed_later {fs : FileSystem} {v : Visit} {visits : List Visit}
    (closed : ∀ p e, .unlistable p e ∈ v :: visits → ∃ e', fs.read p = .error e') (chain : List Encoding) (mode : Mode) :
    ∀ p e, .unlistable p e ∈ visits → ∃ e', (fs.perform chain mode v).after.read p = .error e' := by
  intro p e member
  obtain ⟨e',refused⟩ := closed p e (List.mem_cons_of_mem _ member)
  exact ⟨e',(fs.perform_tidies chain mode v).toSameLayout.read_error refused⟩

/-- A run logs the story of its entries. -/
theorem performAll_log {fs : FileSystem} {visits : List Visit} (chain : List Encoding) (mode : Mode)
    (closed : ∀ p e, .unlistable p e ∈ visits → ∃ e', fs.read p = .error e') :
    (fs.performAll chain mode visits).flatMap Step.log =
      fs.story chain mode ((fs.performAll chain mode visits).map Step.entry) := by
  induction visits generalizing fs with
  | nil => rfl
  | cons v visits ih =>
    obtain ⟨log,after⟩ := fs.perform_log chain mode fun p e here => closed p e (here ▸ List.mem_cons_self)
    rw [performAll, List.flatMap_cons, List.map_cons, story, ih (closed_later closed chain mode), log, after]

/-- Each entry of a run is told by a visit to the file system that the entries before it have left. -/
theorem performAll_split {fs : FileSystem} {visits : List Visit} {chain : List Encoding} {mode : Mode}
    (closed : ∀ p e, .unlistable p e ∈ visits → ∃ e', fs.read p = .error e') {earlier later : List Entry} {entry : Entry}
    (split : (fs.performAll chain mode visits).map Step.entry = earlier ++ entry :: later) :
    ∃ v, (∀ p e, v = .unlistable p e → ∃ e', (fs.afterEntries chain mode earlier).read p = .error e') ∧
      ((fs.afterEntries chain mode earlier).perform chain mode v).entry = entry := by
  induction visits generalizing fs earlier with
  | nil => simp [performAll] at split
  | cons v visits ih =>
    have closed_here : ∀ p e, v = .unlistable p e → ∃ e', fs.read p = .error e' :=
      fun p e here => closed p e (here ▸ List.mem_cons_self)
    rw [performAll, List.map_cons] at split
    cases earlier with
    | nil => exact ⟨v,closed_here,(List.cons.inj split).1⟩
    | cons first earlier =>
      rw [List.cons_append] at split
      obtain ⟨rfl,rest⟩ := List.cons.inj split
      rw [afterEntries, List.foldl_cons, ← (fs.perform_log chain mode closed_here).2]
      exact ih (closed_later closed chain mode) rest

theorem perform_processed {now : FileSystem} {v : Visit} {chain : List Encoding} {mode : Mode} {p : Path} {o : Outcome}
    (told : (now.perform chain mode v).entry = .processed p o) : (now.simplifyFile p chain mode).result = .ok o := by
  cases v with
  | candidate q =>
    rw [perform, Step.ofAttempt] at told
    cases done : (now.simplifyFile q chain mode).result with
    | ok o' =>
      rw [done] at told
      cases told
      exact done
    | error f =>
      rw [done] at told
      cases told
  | _ => cases told

end FileSystem

/-! ## Walks -/

/-- A directory that a walk cannot list cannot be read as a file either. -/
theorem Root.read_of_unlistable {fs : FileSystem} {skip : SkipSet} {p : Path} {r : Root} (found : fs.findRoot p = .ok r)
    {q : Path} {e : SystemError} (visited : .unlistable q e ∈ r.visits fs skip) : ∃ e', fs.read q = .error e' := by
  obtain ⟨rel,listed⟩ := mem_visits_iff.1 visited
  rcases mem_itinerary.1 listed with ⟨_,_,other⟩ | ⟨_,met,calls⟩
  · cases other
  · cases calls with
    | unlistable directory kept refused =>
      cases read : fs.read (r.path rel) with
      | error e' => exact ⟨e',rfl⟩
      | ok bytes =>
        obtain ⟨l,access,leads,node,_⟩ := FileSystem.read_eq_ok_iff.1 read
        obtain rfl := resolve_eq_place_of_isDirectory found (meets_iff.1 met).1 directory leads
        obtain ⟨access',node'⟩ := Layout.isDirectory_iff.1 directory
        rw [node] at node'
        cases node'

/-- An entry of a walk about a file that was read tells what comes of the file as it was at that moment. -/
theorem FileSystem.walk_processed {fs : FileSystem} {s : Settings} {report : Report}
    (ended : (fs.walk s).result = .ok report) {earlier later : List Entry} {p : Path} {o : Outcome}
    (split : report.entries = earlier ++ .processed p o :: later) :
    ((fs.afterEntries s.encodings s.mode earlier).simplifyFile p s.encodings s.mode).result = .ok o := by
  obtain ⟨r,found,_,_,rfl⟩ := walk_eq_of_ok ended
  obtain ⟨v,_,told⟩ := performAll_split (fun q e visited => Root.read_of_unlistable found visited) split
  exact perform_processed told

/-- A walk that succeeds logs the story of its entries, and the totals. -/
theorem FileSystem.walk_log_eq {fs : FileSystem} {s : Settings} {report : Report} (ended : (fs.walk s).result = .ok report) :
    (fs.walk s).log = fs.story s.encodings s.mode report.entries ++ [.ofReport report] := by
  obtain ⟨r,found,_,walked,rfl⟩ := walk_eq_of_ok ended
  rw [walked]
  simp only [Walk.ofSteps, performAll_log s.encodings s.mode fun p e visited => Root.read_of_unlistable found visited]

theorem FileSystem.walk_warnings {fs : FileSystem} {s : Settings} {report : Report}
    (ended : (fs.walk s).result = .ok report) :
    (fs.walk s).log.filter (·.level = .warn) = report.entries.filterMap Entry.warning? := by
  rw [walk_log_eq ended, List.filter_append, filter_story_warn]
  exact List.append_nil _

end ParamTidy

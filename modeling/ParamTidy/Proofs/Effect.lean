import ParamTidy.Proofs.Rounds

/-!
# What a writing walk does to the disk

A writing walk rewrites a file exactly if one of its candidates opens that file and the file's original bytes hold something to
rewrite, however many entries lead to the file and in whatever order they come: `perform_write` is the step and
`performAll_write_content_iff` the run.
-/

namespace ParamTidy

namespace FileSystem

/-- What a writing walk may do at one visit: rewrite the file that is opened there, or leave all as it is because nothing there
can be rewritten. -/
inductive WriteStep (fs : FileSystem) (chain : List Encoding) (v : Visit) : Step → Prop
  | rewrites {p : Path} {l : Location} {bytes : Bytes} {n : Nat} {e : Encoding} {log : List LogLine}
      (candidate : v = .candidate p) (opens : fs.Opens p l) (found : rewritten? chain (fs.content l) = some bytes)
      (positive : 0 < n) : WriteStep fs chain v ⟨.processed p (.simplified n e),log,fs.setContent l bytes⟩
  | leaves {entry : Entry} {log : List LogLine}
      (nothing : ∀ p l, v = .candidate p → fs.Opens p l → rewritten? chain (fs.content l) = none)
      (quiet : ∀ p o, entry = .processed p o → ∃ e, o = .unchanged e) : WriteStep fs chain v ⟨entry,log,fs⟩

theorem perform_write (fs : FileSystem) (chain : List Encoding) (v : Visit) :
    WriteStep fs chain v (fs.perform chain .write v) := by
  cases v with
  | pruned p => exact .leaves (fun _ _ other => by cases other) (fun _ _ other => by cases other)
  | unlistable p e => exact .leaves (fun _ _ other => by cases other) (fun _ _ other => by cases other)
  | excluded p => exact .leaves (fun _ _ other => by cases other) (fun _ _ other => by cases other)
  | candidate p =>
    rw [perform]
    have treated := fs.simplifyFile_treated p chain .write
    generalize fs.simplifyFile p chain .write = attempt at treated
    cases treated with
    | unreadable read =>
      refine .leaves (fun p' l same opens => ?_) (fun _ _ other => by cases other)
      cases same
      rw [opens.read] at read
      cases read
    | undecodable read decoded =>
      refine .leaves (fun p' l same opens => ?_) (fun _ _ other => by cases other)
      cases same
      rw [opens.read, Except.ok.injEq] at read
      exact read ▸ rewritten?_of_none decoded
    | unchanged read decoded free =>
      refine .leaves (fun p' l same opens => ?_) (fun p' o entry => ?_)
      · cases same
        rw [opens.read, Except.ok.injEq] at read
        exact read ▸ rewritten?_of_free decoded free
      · cases entry
        exact ⟨_,rfl⟩
    | foreseen read decoded holds dry => cases dry
    | unwritable read decoded holds writing write =>
      refine .leaves (fun p' l same opens => ?_) (fun _ _ other => by cases other)
      cases same
      rw [opens.write] at write
      cases write
    | simplified read decoded holds writing write =>
      obtain ⟨l,opens,rfl,rfl⟩ := opens_of_read_of_write read write
      have positive := simplify_changed_iff.2 holds
      rw [Simplified.changed, decide_eq_true_iff] at positive
      exact .rewrites rfl opens (rewritten?_of_holds decoded holds) positive

/-- A run changes what a file holds exactly if one of its candidates opens the file and finds something to rewrite in what it
held at first. -/
theorem performAll_write_content_iff (fs : FileSystem) (chain : List Encoding) (visits : List Visit) (l : Location) :
    (fs.afterSteps (fs.performAll chain .write visits)).content l ≠ fs.content l ↔
      ∃ p bytes, .candidate p ∈ visits ∧ fs.Opens p l ∧ rewritten? chain (fs.content l) = some bytes := by
  induction visits generalizing fs with
  | nil => simp [performAll, afterSteps]
  | cons v visits ih =>
    have later := (fs.perform chain .write v).after.performAll_tidies chain .write visits
    have step := fs.perform_write chain v
    have same := (fs.perform_tidies chain .write v).toSameLayout
    rw [performAll, afterSteps_cons]
    specialize ih (fs.perform chain .write v).after
    generalize fs.perform chain .write v = performed at ih later step same ⊢
    cases step with
    | @rewrites p l' bytes n e log candidate opens found positive =>
      by_cases here : l = l'
      · subst here
        -- What has just been rewritten is tidy, so the rest of the run leaves it as it is.
        have kept := later.content_of_rewritten? found
        refine ⟨fun _ => ⟨p,bytes,by simp [candidate],opens,found⟩,fun _ => ?_⟩
        rw [kept]
        exact rewritten?_ne found
      · have untouched : (fs.setContent l' bytes).content l = fs.content l := by rw [setContent_content, if_neg here]
        rw [untouched] at ih
        rw [ih]
        constructor
        · rintro ⟨p',bytes',member,opens',found'⟩
          exact ⟨p',bytes',List.mem_cons_of_mem _ member,same.opens.1 opens',found'⟩
        · rintro ⟨p',bytes',member,opens',found'⟩
          rcases List.mem_cons.1 member with head | member
          · rw [candidate, Visit.candidate.injEq] at head
            subst head
            exact absurd (Except.ok.inj (opens'.1.symm.trans opens.1)) here
          · exact ⟨p',bytes',member,same.opens.2 opens',found'⟩
    | leaves nothing quiet =>
      rw [ih]
      constructor
      · rintro ⟨p,bytes,member,opens,found⟩
        exact ⟨p,bytes,List.mem_cons_of_mem _ member,opens,found⟩
      · rintro ⟨p,bytes,member,opens,found⟩
        rcases List.mem_cons.1 member with head | member
        · rw [nothing p l head.symm opens] at found
          cases found
        · exact ⟨p,bytes,member,opens,found⟩

end FileSystem

/-! ## Walks -/

/-- An entry that a walk meets, by its own name a source and not excluded, is a file or a link to it. -/
structure Root.Offers (r : Root) (fs : FileSystem) (skip : SkipSet) (rel f : Location) : Prop where
  met : r.Meets fs skip rel
  named : isSourceName (r.lastName rel)
  kept : ¬ skip.skipsFile (r.path rel)
  leads : r.place rel = f ∨ fs.layout.isLink (r.place rel) ∧ fs.resolve (r.path rel) = .ok f

/-- A walk has reason to rewrite a file: an entry offers the file and opens it for reading and for writing, and the first
encoding that accepts its bytes gives a text with forms. -/
def Root.Rewrites (r : Root) (fs : FileSystem) (s : Settings) (f : Location) (t : Text) : Prop :=
  (∃ rel, r.Offers fs s.skip rel f ∧ fs.Opens (r.path rel) f) ∧
    (∃ e, Encoding.FirstReads s.encodings (fs.content f) e t) ∧ 0 < (simplify t).count

section
variable {fs : FileSystem} {s : Settings} {r : Root}

/-- What the entries offer for reading and writing is what the candidates open. -/
theorem Root.offers_iff (found : fs.findRoot s.root = .ok r) {f : Location} :
    (∃ rel, r.Offers fs s.skip rel f ∧ fs.Opens (r.path rel) f) ↔
      ∃ p, .candidate p ∈ r.visits fs s.skip ∧ fs.Opens p f := by
  have directory := (FileSystem.findRoot_eq_ok_iff.1 found).2.2.1
  constructor
  · rintro ⟨rel,offers,opens⟩
    have kind : fs.layout.isFile (r.place rel) ∨ fs.layout.isLink (r.place rel) ∧ fs.leadsToFile (r.path rel) := by
      rcases offers.leads with rfl | ⟨link,leads⟩
      · exact .inl opens.isFile
      · exact .inr ⟨link,by simp [FileSystem.leadsToFile, leads, opens.isFile]⟩
    have below : rel ≠ [] := by
      rintro rfl
      simp only [place, List.append_nil, Layout.isDirectory, Layout.isFile, Layout.isLink] at directory kind
      split at directory <;> simp_all
    exact ⟨_,candidate_mem_visits_iff.2 ⟨rel,below,offers.met,rfl,offers.named,offers.kept,kind⟩,opens⟩
  · rintro ⟨p,member,opens⟩
    obtain ⟨rel,_,met,rfl,named,kept,kind⟩ := candidate_mem_visits_iff.1 member
    refine ⟨rel,⟨met,named,kept,?_⟩,opens⟩
    rcases kind with file | ⟨link,_⟩
    · cases node : fs.layout.node? (r.place rel) with
      | none => simp [Layout.isFile, node] at file
      | some n =>
        have plain : fs.layout.isLink (r.place rel) = false := by
          cases n <;> simp_all [Layout.isFile, Layout.isLink]
        exact .inl (resolve_eq_place found met.way (by simp [node]) plain opens.1).symm
    · exact .inr ⟨link,opens.1⟩

theorem Root.rewrites_iff (found : fs.findRoot s.root = .ok r) {f : Location} {bytes : Bytes} :
    (∃ t, r.Rewrites fs s f t ∧ bytes = Utf8.encode (simplify t).text) ↔
      ∃ p, .candidate p ∈ r.visits fs s.skip ∧ fs.Opens p f ∧
        rewritten? s.encodings (fs.content f) = some bytes := by
  constructor
  · rintro ⟨t,⟨offered,⟨e,first⟩,positive⟩,rfl⟩
    obtain ⟨p,member,opens⟩ := (r.offers_iff found).1 offered
    have holds : HoldsForm t := simplify_changed_iff.1 (by simpa [Simplified.changed] using positive)
    have read : Encoding.read? s.encodings (fs.content f) = some ⟨t,e⟩ := Encoding.read?_eq_some_iff.2 first
    exact ⟨p,member,opens,rewritten?_of_holds read holds⟩
  · rintro ⟨p,member,opens,written⟩
    obtain ⟨reading,read,holds,rfl⟩ := rewritten?_eq_some_iff.1 written
    have positive := simplify_changed_iff.2 holds
    rw [Simplified.changed, decide_eq_true_iff] at positive
    exact ⟨reading.text,⟨(r.offers_iff found).2 ⟨p,member,opens⟩,
      ⟨reading.encoding,Encoding.read?_eq_some_iff.1 read⟩,positive⟩,rfl⟩

end

/-- A writing walk that succeeds leaves directories, links, permissions and all that is no file as they were. It changes what a
file holds exactly if an entry that it meets, a source by its own name and not excluded, is the file or a link to it and opens
it, and the file's original bytes give a text with forms in the first encoding that accepts them; and then the file holds that
text simplified, in UTF-8, however many entries lead to it. -/
theorem walk_write_content {fs : FileSystem} {s : Settings} {report : Report} (writing : s.mode = .write)
    (ended : (fs.walk s).result = .ok report) :
    ∃ r, fs.findRoot s.root = .ok r ∧ (fs.walk s).after.layout = fs.layout ∧ (fs.walk s).after.cwd = fs.cwd ∧
      (∀ l, ¬ fs.layout.isFile l → (fs.walk s).after.content l = fs.content l) ∧
      ∀ f, ((fs.walk s).after.content f ≠ fs.content f ↔ ∃ t, r.Rewrites fs s f t) ∧
        ∀ t, r.Rewrites fs s f t → (fs.walk s).after.content f = Utf8.encode (simplify t).text := by
  obtain ⟨r,found,_,walked,_⟩ := FileSystem.walk_eq_of_ok ended
  have tidies := fs.walk_tidies s
  have changes (f : Location) :
      (fs.walk s).after.content f ≠ fs.content f ↔ ∃ t, r.Rewrites fs s f t := by
    have run := fs.performAll_write_content_iff s.encodings (r.visits fs s.skip) f
    rw [walked, writing, Walk.ofSteps, run]
    constructor
    · rintro ⟨p,bytes,reason⟩
      obtain ⟨t,rewrites,_⟩ := (Root.rewrites_iff found).2 ⟨p,reason⟩
      exact ⟨t,rewrites⟩
    · rintro ⟨t,rewrites⟩
      obtain ⟨p,reason⟩ := (Root.rewrites_iff found).1 ⟨t,rewrites,rfl⟩
      exact ⟨p,_,reason⟩
  refine ⟨r,found,tidies.layout,tidies.cwd,fun l noFile => ?_,fun f => ⟨changes f,fun t rewrites => ?_⟩⟩
  · rcases tidies.content l with same | ⟨⟨access,node,_⟩,_⟩
    · exact same
    · exact absurd (by simp [Layout.isFile, node]) noFile
  · obtain ⟨_,_,_,written⟩ := (Root.rewrites_iff found).1 ⟨t,rewrites,rfl⟩
    rcases tidies.content f with same | ⟨_,chain,rfl,written'⟩
    · exact absurd same ((changes f).2 ⟨t,rewrites⟩)
    · exact Option.some.inj (written'.symm.trans written)

/-- A file in Latin-1 is rewritten in UTF-8 once, through the link that comes first, and the one that cannot be written stays.
-/
theorem sample_walk_write_content :
    Sample.settings.mode = .write ∧ (Sample.disk.walk Sample.settings).result = .ok Sample.report ∧
      ∃ r t, Sample.disk.findRoot Sample.settings.root = .ok r ∧ r.Rewrites Sample.disk Sample.settings [Sample.b] t ∧
        (Sample.disk.walk Sample.settings).after.content [Sample.b] = Utf8.encode (simplify t).text ∧
        ¬ ∃ t, r.Rewrites Sample.disk Sample.settings [Sample.c] t := by
  obtain ⟨r,found,_,_,_,files⟩ := walk_write_content (s := Sample.settings) rfl Sample.walk_result
  obtain ⟨t,rewrites⟩ := (files [Sample.b]).1.1 (by decide +kernel)
  refine ⟨rfl,Sample.walk_result,r,t,found,rewrites,(files [Sample.b]).2 t rewrites,fun again => ?_⟩
  exact (files [Sample.c]).1.2 again (by decide +kernel)

end ParamTidy

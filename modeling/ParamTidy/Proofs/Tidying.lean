import ParamTidy.Proofs.Misreading
import ParamTidy.SourceFile

/-!
# Tidying one file

What a file is rewritten to depends on its bytes and on the chain of encodings alone (`rewritten?`). The outcome is tidy: no
chain finds anything in it to rewrite (`IsTidy.rewritten?_eq_none`). `simplifyFile_treated` lists all that may come of one
file.
-/

namespace ParamTidy

/-- The encodings before the first one that accepts some bytes refuse them, and that one gives the text. -/
def Encoding.FirstReads (chain : List Encoding) (bytes : Bytes) (e : Encoding) (s : Text) : Prop :=
  ∃ before after, chain = before ++ e :: after ∧ (∀ x ∈ before, x.decode? bytes = none) ∧ e.decode? bytes = some s

theorem Encoding.read?_eq_some_iff {chain : List Encoding} {bytes : Bytes} {reading : Reading} :
    read? chain bytes = some reading ↔ FirstReads chain bytes reading.encoding reading.text := by
  obtain ⟨s,e⟩ := reading
  simp only [read?, List.findSome?_eq_some_iff, Option.map_eq_some_iff, Option.map_eq_none_iff, Reading.mk.injEq]
  constructor
  · rintro ⟨before,x,after,split,⟨t,read,rfl,rfl⟩,refused⟩
    exact ⟨before,after,split,refused,read⟩
  · rintro ⟨before,after,split,refused,read⟩
    exact ⟨before,e,after,split,⟨s,read,rfl,rfl⟩,refused⟩

/-! ## Bytes -/

/-- A text in UTF-8 that holds no form. -/
def IsTidy (bytes : Bytes) : Prop := ∃ s, bytes = Utf8.encode s ∧ ¬ HoldsForm s

/-- What some bytes are rewritten to, if the text that the chain makes of them holds a form. -/
def rewritten? (chain : List Encoding) (bytes : Bytes) : Option Bytes :=
  (Encoding.read? chain bytes).bind fun reading =>
    if (simplify reading.text).changed then some (Utf8.encode (simplify reading.text).text) else none

theorem rewritten?_of_none {chain : List Encoding} {bytes : Bytes} (read : Encoding.read? chain bytes = none) :
    rewritten? chain bytes = none := by
  simp [rewritten?, read]

theorem rewritten?_of_free {chain : List Encoding} {bytes : Bytes} {reading : Encoding.Reading}
    (read : Encoding.read? chain bytes = some reading) (free : ¬ HoldsForm reading.text) :
    rewritten? chain bytes = none := by
  simp [rewritten?, read, simplify_changed_iff, free]

theorem rewritten?_of_holds {chain : List Encoding} {bytes : Bytes} {reading : Encoding.Reading}
    (read : Encoding.read? chain bytes = some reading) (holds : HoldsForm reading.text) :
    rewritten? chain bytes = some (Utf8.encode (simplify reading.text).text) := by
  simp [rewritten?, read, simplify_changed_iff, holds]

theorem rewritten?_eq_some_iff {chain : List Encoding} {bytes after : Bytes} :
    rewritten? chain bytes = some after ↔ ∃ reading, Encoding.read? chain bytes = some reading ∧
      HoldsForm reading.text ∧ after = Utf8.encode (simplify reading.text).text := by
  constructor
  · intro found
    cases read : Encoding.read? chain bytes with
    | none =>
      rw [rewritten?_of_none read] at found
      cases found
    | some reading =>
      by_cases holds : HoldsForm reading.text
      · rw [rewritten?_of_holds read holds, Option.some.injEq] at found
        exact ⟨reading,rfl,holds,found.symm⟩
      · rw [rewritten?_of_free read holds] at found
        cases found
  · rintro ⟨reading,read,holds,rfl⟩
    exact rewritten?_of_holds read holds

theorem isTidy_of_rewritten? {chain : List Encoding} {bytes after : Bytes} (h : rewritten? chain bytes = some after) :
    IsTidy after := by
  obtain ⟨reading,_,_,rfl⟩ := rewritten?_eq_some_iff.1 h
  exact ⟨_,rfl,simplify_text_formFree _⟩

/-- Tidy bytes are read in the first encoding of the chain, whichever that is, and hold no form for it. -/
theorem IsTidy.read? {bytes : Bytes} (tidy : IsTidy bytes) (e : Encoding) (chain : List Encoding) :
    ∃ s, Encoding.read? (e :: chain) bytes = some ⟨s,e⟩ ∧ ¬ HoldsForm s := by
  obtain ⟨s,rfl,free⟩ := tidy
  obtain ⟨t,read⟩ := decode?_encode_isSome e s
  exact ⟨t,Encoding.read?_cons_of_some read chain,fun holds => free (holdsForm_of_decode? read holds)⟩

theorem IsTidy.refusals {bytes : Bytes} (tidy : IsTidy bytes) (chain : List Encoding) :
    Encoding.refusals chain bytes = [] := by
  obtain ⟨s,rfl,_⟩ := tidy
  cases chain with
  | nil => rfl
  | cons e chain =>
    obtain ⟨t,read⟩ := decode?_encode_isSome e s
    simp [Encoding.refusals, read]

theorem IsTidy.rewritten?_eq_none {bytes : Bytes} (tidy : IsTidy bytes) (chain : List Encoding) :
    rewritten? chain bytes = none := by
  cases chain with
  | nil => rfl
  | cons e chain =>
    obtain ⟨s,read,free⟩ := tidy.read? e chain
    exact rewritten?_of_free read free

theorem rewritten?_ne {chain : List Encoding} {bytes after : Bytes} (h : rewritten? chain bytes = some after) :
    after ≠ bytes := by
  rintro rfl
  rw [(isTidy_of_rewritten? h).rewritten?_eq_none] at h
  cases h

namespace FileSystem

/-! ## Opening a file -/

/-- A path opens a file for reading and for writing. -/
def Opens (fs : FileSystem) (p : Path) (l : Location) : Prop :=
  fs.resolve p = .ok l ∧ ∃ access, fs.layout.node? l = some (.file access) ∧ access.read ∧ access.write

/-- The file that a path leads to, if any, can be written if it can be read. -/
def Editable (fs : FileSystem) (p : Path) : Prop :=
  ∀ l access, fs.resolve p = .ok l → fs.layout.node? l = some (.file access) → access.read → access.write

section
variable {fs : FileSystem} {p : Path} {l : Location}

theorem Opens.isFile (opens : fs.Opens p l) : fs.layout.isFile l := by
  obtain ⟨_,access,node,_⟩ := opens
  simp [Layout.isFile, node]

theorem Opens.read (opens : fs.Opens p l) : fs.read p = .ok (fs.content l) := by
  obtain ⟨leads,access,node,readable,_⟩ := opens
  exact read_eq_ok_iff.2 ⟨l,access,leads,node,readable,rfl⟩

theorem Opens.write (opens : fs.Opens p l) (bytes : Bytes) : fs.write p bytes = .ok (fs.setContent l bytes) := by
  obtain ⟨leads,access,node,_,writable⟩ := opens
  exact write_eq_ok_iff.2 ⟨l,access,leads,node,writable,rfl⟩

theorem Opens.read_setContent (opens : fs.Opens p l) (bytes : Bytes) :
    (fs.setContent l bytes).read p = .ok bytes := by
  obtain ⟨leads,access,node,readable,_⟩ := opens
  refine read_eq_ok_iff.2 ⟨l,access,?_,node,readable,?_⟩
  · rw [resolve, setContent_find, ← resolve, leads]
  · rw [setContent_content, if_pos rfl]

theorem Editable.opens {bytes : Bytes} (editable : fs.Editable p) (read : fs.read p = .ok bytes) :
    ∃ l, fs.Opens p l ∧ bytes = fs.content l := by
  obtain ⟨l,access,leads,node,readable,rfl⟩ := read_eq_ok_iff.1 read
  exact ⟨l,⟨leads,access,node,readable,editable l access leads node readable⟩,rfl⟩

/-- What can be read and has been written is open for both. -/
theorem opens_of_read_of_write {after : FileSystem} {bytes bytes' : Bytes} (read : fs.read p = .ok bytes)
    (write : fs.write p bytes' = .ok after) :
    ∃ l, fs.Opens p l ∧ bytes = fs.content l ∧ after = fs.setContent l bytes' := by
  obtain ⟨l,access,leads,node,readable,rfl⟩ := read_eq_ok_iff.1 read
  obtain ⟨l',access',leads',node',writable,rfl⟩ := write_eq_ok_iff.1 write
  obtain rfl : l = l' := Except.ok.inj (leads.symm.trans leads')
  obtain rfl : access = access' := by simpa [node] using node'
  exact ⟨l,⟨leads,access,node,readable,writable⟩,rfl,rfl⟩

end

/-! ## All that may come of a file -/

/-- What may come of the file at a path, what is logged about it, and the file system after it. -/
inductive Treated (fs : FileSystem) (p : Path) (chain : List Encoding) (mode : Mode) : Attempt → Prop
  | unreadable {error : SystemError} (read : fs.read p = .error error) :
      Treated fs p chain mode ⟨.error (.io p (.system error)),[],fs⟩
  | undecodable {bytes : Bytes} (read : fs.read p = .ok bytes) (decoded : Encoding.read? chain bytes = none) :
      Treated fs p chain mode ⟨.error (.undecodable p),(Encoding.refusals chain bytes).map .refused,fs⟩
  | unchanged {bytes : Bytes} {reading : Encoding.Reading} (read : fs.read p = .ok bytes)
      (decoded : Encoding.read? chain bytes = some reading) (free : ¬ HoldsForm reading.text) :
      Treated fs p chain mode
        ⟨.ok (.unchanged reading.encoding),(Encoding.refusals chain bytes).map .refused,fs⟩
  | foreseen {bytes : Bytes} {reading : Encoding.Reading} (read : fs.read p = .ok bytes)
      (decoded : Encoding.read? chain bytes = some reading) (holds : HoldsForm reading.text) (dry : mode = .dryRun) :
      Treated fs p chain mode
        ⟨.ok (.wouldSimplify (simplify reading.text).count reading.encoding),
          (Encoding.refusals chain bytes).map .refused,fs⟩
  | unwritable {bytes : Bytes} {reading : Encoding.Reading} {error : SystemError} (read : fs.read p = .ok bytes)
      (decoded : Encoding.read? chain bytes = some reading) (holds : HoldsForm reading.text) (writing : mode = .write)
      (write : fs.write p (Utf8.encode (simplify reading.text).text) = .error error) :
      Treated fs p chain mode
        ⟨.error (.io p (.system error)),(Encoding.refusals chain bytes).map .refused,fs⟩
  | simplified {bytes : Bytes} {reading : Encoding.Reading} {after : FileSystem} (read : fs.read p = .ok bytes)
      (decoded : Encoding.read? chain bytes = some reading) (holds : HoldsForm reading.text) (writing : mode = .write)
      (write : fs.write p (Utf8.encode (simplify reading.text).text) = .ok after) :
      Treated fs p chain mode
        ⟨.ok (.simplified (simplify reading.text).count reading.encoding),
          (Encoding.refusals chain bytes).map .refused
            ++ [.simplified (simplify reading.text).count p reading.encoding],after⟩

/-- One of these comes of every file, and no other. -/
theorem treated_iff {fs : FileSystem} {p : Path} {chain : List Encoding} {mode : Mode} {a : Attempt} :
    Treated fs p chain mode a ↔ fs.simplifyFile p chain mode = a := by
  constructor
  · intro treated
    cases treated with
    | unreadable read => simp [simplifyFile, read]
    | undecodable read decoded => simp [simplifyFile, read, decoded]
    | unchanged read decoded free => simp [simplifyFile, read, decoded, simplify_changed_eq_false_iff.2 free]
    | foreseen read decoded holds dry => simp [simplifyFile, read, decoded, simplify_changed_iff.2 holds, dry]
    | unwritable read decoded holds writing write =>
      simp [simplifyFile, read, decoded, simplify_changed_iff.2 holds, writing, replace, write]
    | simplified read decoded holds writing write =>
      simp [simplifyFile, read, decoded, simplify_changed_iff.2 holds, writing, replace, write]
  · rintro rfl
    cases read : fs.read p with
    | error error => simpa [simplifyFile, read] using Treated.unreadable read
    | ok bytes =>
      cases decoded : Encoding.read? chain bytes with
      | none => simpa [simplifyFile, read, decoded] using Treated.undecodable read decoded
      | some reading =>
        by_cases holds : HoldsForm reading.text
        · have changed := simplify_changed_iff.2 holds
          cases mode with
          | dryRun => simpa [simplifyFile, read, decoded, changed] using Treated.foreseen read decoded holds rfl
          | write =>
            cases write : fs.write p (Utf8.encode (simplify reading.text).text) with
            | error error =>
              simpa [simplifyFile, read, decoded, changed, replace, write]
                using Treated.unwritable read decoded holds rfl write
            | ok after =>
              simpa [simplifyFile, read, decoded, changed, replace, write]
                using Treated.simplified read decoded holds rfl write
        · simpa [simplifyFile, read, decoded, simplify_changed_eq_false_iff.2 holds] using Treated.unchanged read decoded holds

theorem simplifyFile_treated (fs : FileSystem) (p : Path) (chain : List Encoding) (mode : Mode) :
    Treated fs p chain mode (fs.simplifyFile p chain mode) := treated_iff.2 rfl

/-- What is told of a file that could be read: it was read in the first encoding that accepts it, and its forms, if it holds
any, are counted in the words of the mode. -/
theorem simplifyFile_told {fs : FileSystem} {p : Path} {chain : List Encoding} {mode : Mode} {o : Outcome}
    (done : (fs.simplifyFile p chain mode).result = .ok o) :
    ∃ bytes reading, fs.read p = .ok bytes ∧ Encoding.read? chain bytes = some reading ∧
      (¬ HoldsForm reading.text ∧ o = .unchanged reading.encoding ∨
        HoldsForm reading.text ∧ (mode = .dryRun ∧ o = .wouldSimplify (simplify reading.text).count reading.encoding ∨
          mode = .write ∧ o = .simplified (simplify reading.text).count reading.encoding)) := by
  have treated := fs.simplifyFile_treated p chain mode
  generalize fs.simplifyFile p chain mode = attempt at treated done
  cases treated with
  | unreadable read => cases done
  | undecodable read decoded => cases done
  | unwritable read decoded holds writing write => cases done
  | unchanged read decoded free =>
    cases done
    exact ⟨_,_,read,decoded,.inl ⟨free,rfl⟩⟩
  | foreseen read decoded holds dry =>
    cases done
    exact ⟨_,_,read,decoded,.inr ⟨holds,.inl ⟨dry,rfl⟩⟩⟩
  | simplified read decoded holds writing write =>
    cases done
    exact ⟨_,_,read,decoded,.inr ⟨holds,.inr ⟨writing,rfl⟩⟩⟩

/-- Nothing comes of a file that is tidy, whatever the chain. -/
theorem simplifyFile_of_isTidy {fs : FileSystem} {p : Path} {bytes : Bytes} (read : fs.read p = .ok bytes)
    (tidy : IsTidy bytes) (e : Encoding) (chain : List Encoding) (mode : Mode) :
    fs.simplifyFile p (e :: chain) mode = ⟨.ok (.unchanged e),[],fs⟩ := by
  obtain ⟨s,decoded,free⟩ := tidy.read? e chain
  have treated : Treated fs p (e :: chain) mode _ := .unchanged read decoded free
  rw [treated_iff.1 treated, tidy.refusals, List.map_nil]

end FileSystem

end ParamTidy

import ParamTidy.Proofs.ReportCoverage
import ParamTidy.Proofs.Effect

/-!
# What exclusions protect

An excluded file is decided upon by the path that a walk comes along, and a link is written through to where it leads. So an
excluded file keeps its bytes unless a link outside leads there (`walk_keeps_excluded`), and with such a link it may lose them
(`links_lead_past_exclusions`).
-/

namespace ParamTidy

/-- A file is excluded if a directory on the way to it is left alone for its name, or if its own path is excluded. -/
def Root.Excludes (r : Root) (skip : SkipSet) (rel : Location) : Prop :=
  (∃ k < rel.length, r.LeavesAlone skip (rel.take k)) ∨ skip.skipsFile (r.path rel)

theorem Root.Offers.not_excludes {r : Root} {fs : FileSystem} {skip : SkipSet} {rel f : Location}
    (offers : r.Offers fs skip rel f) : ¬ r.Excludes skip rel := by
  rintro (⟨k,inside,left⟩ | skipped)
  · exact offers.met.kept k inside left
  · exact offers.kept skipped

/-- After a writing walk that succeeds an excluded file holds what it held before, unless a link that the walk meets, by its own
name a source and not excluded for its own path, leads to the file and opens it for reading and writing. -/
theorem walk_keeps_excluded {fs : FileSystem} {s : Settings} {report : Report} (writing : s.mode = .write)
    (ended : (fs.walk s).result = .ok report) :
    ∃ r, fs.findRoot s.root = .ok r ∧ ∀ rel, r.Excludes s.skip rel →
      (fs.walk s).after.content (r.place rel) = fs.content (r.place rel) ∨
        ∃ link, fs.layout.isLink (r.place link) ∧ r.Offers fs s.skip link (r.place rel) ∧
          fs.Opens (r.path link) (r.place rel) := by
  obtain ⟨r,found,_,walked,_⟩ := FileSystem.walk_eq_of_ok ended
  refine ⟨r,found,?_⟩
  intro rel excluded
  by_cases same : (fs.walk s).after.content (r.place rel) = fs.content (r.place rel)
  · exact .inl same
  · right
    rw [walked, writing, Walk.ofSteps] at same
    obtain ⟨p,_,member,opens,_⟩ := (fs.performAll_write_content_iff s.encodings (r.visits fs s.skip) _).1 same
    obtain ⟨rel',offers,opens⟩ := (Root.offers_iff found).2 ⟨p,member,opens⟩
    rcases offers.leads with here | ⟨link,_⟩
    · obtain rfl := Root.place_inj.1 here
      exact absurd excluded offers.not_excludes
    · exact ⟨rel',link,offers,opens⟩

namespace Sample

theorem excludes_libs : top.Excludes linkedSettings.skip [libs, a] :=
  .inl ⟨1,by decide,⟨fun linked => Bool.noConfusion linked.2,by decide +kernel⟩⟩

theorem excludes_c : top.Excludes linkedSettings.skip [c] := .inr (by decide +kernel)

end Sample

/-- The file in the excluded directory is not what it was, and the link that led there is `a.c`. -/
theorem sample_walk_keeps_excluded : Sample.linkedSettings.mode = .write ∧
    (Sample.linkedDisk.walk Sample.linkedSettings).result = .ok Sample.linkedReport ∧
    Sample.top.Excludes Sample.linkedSettings.skip [Sample.libs, Sample.a] ∧
    ∃ link, Sample.linkedDisk.layout.isLink (Sample.top.place link) ∧
      Sample.top.Offers Sample.linkedDisk Sample.linkedSettings.skip link [Sample.libs, Sample.a] := by
  obtain ⟨r,found,keeps⟩ := walk_keeps_excluded (s := Sample.linkedSettings) rfl Sample.linked_walk_result
  obtain rfl : Sample.top = r := Except.ok.inj (Sample.linked_findRoot.symm.trans found)
  refine ⟨rfl,Sample.linked_walk_result,Sample.excludes_libs,?_⟩
  rcases keeps _ Sample.excludes_libs with same | ⟨link,isLink,offers,_⟩
  · exact absurd same (by decide +kernel)
  · exact ⟨link,isLink,offers⟩

/-- That a walk leaves every excluded file as it is is false, of one in an excluded directory and of one that is excluded for
its own path, and with a root that is no link: the links `a.c` and `b.c` lead there. -/
theorem links_lead_past_exclusions : Sample.linkedSettings.mode = .write ∧
    (Sample.linkedDisk.walk Sample.linkedSettings).result = .ok Sample.linkedReport ∧
    Sample.linkedDisk.findRoot Sample.linkedSettings.root = .ok Sample.top ∧ Sample.top.linked = false ∧
    ∀ rel ∈ [[Sample.libs, Sample.a], [Sample.c]], Sample.linkedDisk.layout.isFile (Sample.top.place rel) ∧
      Sample.top.Excludes Sample.linkedSettings.skip rel ∧
      (Sample.linkedDisk.walk Sample.linkedSettings).after.content (Sample.top.place rel) ≠
        Sample.linkedDisk.content (Sample.top.place rel) := by
  refine ⟨rfl,Sample.linked_walk_result,Sample.linked_findRoot,rfl,?_⟩
  intro rel member
  simp only [List.mem_cons, List.not_mem_nil, or_false] at member
  rcases member with rfl | rfl
  · exact ⟨by decide +kernel,Sample.excludes_libs,by decide +kernel⟩
  · exact ⟨by decide +kernel,Sample.excludes_c,by decide +kernel⟩

end ParamTidy

import Headend.Hls.Segment
import Headend.Proofs.Hls.History

/-!
# What a segment's name opens

A name that is accepted leads to something right in the output directory. What lies there besides
the segments is the business of the session: its FIFO has an acceptable name too.
-/

namespace Headend.Hls

variable {fs : Files} {out name : String} {path : Path} {node : Files.Node}

theorem validateSegment_eq_ok : validateSegment name = .ok () ↔
    ¬ Files.IsSpecial name ∧ ∀ c ∈ name.toList, c ∉ forbidden := by
  have hsplit : validateSegment name = .ok () ↔ isSegmentName name = true := by
    rw [validateSegment]
    split <;> simp_all
  rw [hsplit]
  simp [isSegmentName, Files.IsSpecial, and_assoc]

/-- An accepted name opens what is there under that name, in the directory it is looked for in. -/
theorem find_segmentPath (hthere : out ≠ "") (haccepted : validateSegment name = .ok ()) :
    fs.find (segmentPath out name) = .ok (path, node) ↔
      Files.permit (segmentPath out name) = .ok () ∧ name.utf8ByteSize ≤ Files.nameLimit ∧
      ∃ dir, fs.find out = .ok (dir, .dir) ∧ path = dir ++ [name] ∧ fs.node? path = some node := by
  obtain ⟨hnamed, hallowed⟩ := validateSegment_eq_ok.mp haccepted
  exact Files.find_join hthere (fun hslash => hallowed '/' hslash (by decide)) hnamed

/-! ## Names of sessions -/

namespace Phase

/-- The session that a call has named and not published yet. -/
def session? : Phase → Option Session
  | making s | made s => some s
  | _ => none

end Phase

/-- A session is named after the directory that all of them are in. -/
def Named (p : Processor) (phase : Phase) : Prop :=
  ∀ s, p.session = some s ∨ phase.session? = some s → ∃ id manifest, s = .named p.base id manifest

theorem finish_quiet (p : Processor) (result : Except TranscodeError Unit) :
    (finish p result).1.session = none ∧ (finish p result).2.session? = none := by
  cases hsession : p.session <;> simp [finish, Processor.endSession, hsession, Phase.session?]

namespace Named

variable {p p' : Processor} {phase phase' : Phase} {e : Event}

theorem goes (h : Named p phase) (hgoes : Goes p phase e p' phase') : Named p' phase' := by
  intro s hthere
  cases hgoes with
  | begun =>
    obtain hthere | hthere := hthere
    · exact h s (.inl hthere)
    · cases hthere
      exact ⟨_, _, rfl⟩
  | made => exact h s hthere
  | ran =>
    obtain hthere | hthere := hthere <;> cases hthere
    exact h s (.inr rfl)
  | @ended _ result | @stopped result =>
    obtain ⟨hsession, hphase⟩ := finish_quiet p result
    rw [hsession, hphase] at hthere
    obtain hthere | hthere := hthere <;> cases hthere
  | failed => obtain hthere | hthere := hthere <;> cases hthere
  | barred | refused | spoiled | discarded | stopping | removed =>
    exact h s (.inl (hthere.resolve_right nofun))

theorem destroy (h : Named p phase) : Named p.destroy phase := by
  intro s hthere
  cases hsession : p.session with
  | none =>
    rw [Processor.destroy, Processor.endSession, hsession] at hthere ⊢
    exact h s (hthere.imp_left nofun)
  | some t =>
    rw [Processor.destroy, Processor.endSession, hsession] at hthere ⊢
    exact h s (hthere.imp_left nofun)

end Named

namespace Job

variable {j j' : Job} {m : Move} {ms : List Move} {s : Session} {base : Path} {files : Files}
  {id manifest : String}

theorem named_advance (h : Named j.processor j.phase) (hadvanced : j.advance m = some j') :
    Named j'.processor j'.phase := by
  cases advance_happens hadvanced with
  | step hgoes => exact h.goes hgoes
  | destroy => exact h.destroy
  | _ => exact h

/-- Every session that is ever published has its FIFO in the output directory. -/
theorem fifo_of_play (hplayed : (new base files id manifest).play ms = some j)
    (hpublished : j.processor.session = some s) : s.fifo = s.dir ++ ["pipe-audio.fifo"] := by
  have hstart : Named (new base files id manifest).processor
      (new base files id manifest).phase := nofun
  have hnamed : Named j.processor j.phase := Runs.foldlM_invariant
    (P := fun j => Named j.processor j.phase) (fun _ => named_advance) hstart hplayed
  obtain ⟨id, manifest, rfl⟩ := hnamed s (.inl hpublished)
  rfl

theorem find_launched (others : List (Path × Files.Node)) :
    (launched others).files.find "/tmp/s-hls" = .ok (["tmp", "s-hls"], .dir) := by
  refine Files.find_eq_ok.mpr ⟨Files.permit_eq_ok.mpr ⟨by decide, by decide⟩, by decide, ?_⟩
  exact Files.leads_dir_iff.mpr rfl

theorem segmentPath_launched (hplain : '/' ∉ name.toList) :
    segmentPath "/tmp/s-hls" name = "/tmp/s-hls" ++ "/" ++ name := by
  have hclosed : "/tmp/s-hls".endsWith "/" = false := by
    rw [Bool.eq_false_iff, Ne, Files.endsWith_iff]
    decide
  rw [segmentPath, Files.join_eq (by decide) hplain, hclosed]
  rfl

/-- A request for an accepted name opens the child of that name of the output directory, if there is
one and the system takes the path. That is the FIFO of the session exactly if its name is asked
for. -/
theorem segment_opens (hplayed : (new base files id manifest).play ms = some j)
    (hpublished : j.processor.session = some s) (hleads : j.files.find out = .ok (s.dir, .dir))
    (haccepted : validateSegment name = .ok ()) :
    (j.files.find (segmentPath out name) = .ok (path, node) ↔
      Files.permit (segmentPath out name) = .ok () ∧ name.utf8ByteSize ≤ Files.nameLimit ∧
      path = s.dir ++ [name] ∧ j.files.node? path = some node) ∧
    (s.dir ++ [name] = s.fifo ↔ name = "pipe-audio.fifo") := by
  constructor
  · rw [find_segmentPath (Files.find_eq_ok.mp hleads).2.1 haccepted]
    refine and_congr_right fun _ => and_congr_right fun _ => ⟨?_,
      fun hopened => ⟨_, hleads, hopened⟩⟩
    rintro ⟨dir, hfound, hopened⟩
    obtain ⟨rfl, -⟩ := Prod.mk.inj (Except.ok.inj (hfound.symm.trans hleads))
    exact hopened
  · rw [fifo_of_play hplayed hpublished, List.append_cancel_left_eq, List.singleton_inj]

theorem segment_opens_latest :
    ∃ j : Job, (launched []).play [.put ["tmp", "s-hls", "1.ts"] (.file [7])] = some j ∧
      j.files.find (segmentPath "/tmp/s-hls" "1.ts") = .ok (["tmp", "s-hls", "1.ts"], .file [7]) ∧
      ["tmp", "s-hls", "1.ts"] ≠ (Session.named ["tmp"] "s" "m").fifo := by
  have hrest : (launched []).play [.put ["tmp", "s-hls", "1.ts"] (.file [7])]
      = some (launched [(["tmp", "s-hls", "1.ts"], .file [7])]) := rfl
  have hopens (path : Path) (node : Files.Node) := @segment_opens _ "1.ts" path node _ _ _ _ _ _ _
    (Runs.foldlM_append_eq_some.mpr ⟨_, play_launched, hrest⟩) rfl (find_launched _) (by decide)
  refine ⟨_, hrest, (hopens _ _).1.mpr ⟨?_, by decide, rfl, rfl⟩, fun hfifo => ?_⟩
  · rw [segmentPath_launched (by decide)]
    exact Files.permit_eq_ok.mpr ⟨by decide, by decide⟩
  · exact absurd ((hopens [] .dir).2.mp hfifo) (by decide)

/-- The name of the FIFO is accepted, and the FIFO is what it opens. -/
theorem fifo_name_accepted :
    (new ["tmp"] .empty "s" "m").play [.step .begin, .step (.makeDir none), .step (.setUp none)]
        = some (launched []) ∧
      (launched []).processor.session = some (.named ["tmp"] "s" "m") ∧
      (launched []).files.find "/tmp/s-hls" = .ok ((Session.named ["tmp"] "s" "m").dir, .dir) ∧
      validateSegment "pipe-audio.fifo" = .ok () ∧
      (launched []).files.find (segmentPath "/tmp/s-hls" "pipe-audio.fifo")
        = .ok ((Session.named ["tmp"] "s" "m").fifo, .fifo) := by
  have haccepted : validateSegment "pipe-audio.fifo" = .ok () := by decide
  refine ⟨play_launched, rfl, find_launched [], haccepted,
    (find_segmentPath (by decide) haccepted).mpr ⟨?_, by decide, _, find_launched [], rfl, rfl⟩⟩
  rw [segmentPath_launched (by decide)]
  exact Files.permit_eq_ok.mpr ⟨by decide, by decide⟩

end Job

end Headend.Hls

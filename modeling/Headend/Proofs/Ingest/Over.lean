import Headend.Proofs.Ingest.Held
import Headend.Proofs.Ingest.Moored

/-!
# Nothing outlives a session

Every task belongs to one session, that of the stream on whose leash it runs. When the session is
cancelled or its stream destroyed, in whatever order and however full the pipes are, and no task can
move any more, then all tasks of the session have ended.
-/

namespace Headend.Ingest.Registry

open Plant

variable {r : Registry} {s t token : Nat} {x y : Stream} {as : List Act} {failFast : Bool}

/-- A task with this token belongs to the session of the stream `s`. -/
def Owns (r : Registry) (s token : Nat) : Prop :=
  ∃ x, r.streams[s]? = some x ∧ r.plant.Ties x.closed token

/-- All tasks of a session have ended: fan-outs with their lanes, relays, processors, links, the
calls that pipe its tracks, and its driver. -/
structure Over (r : Registry) (s : Nat) : Prop where
  fans : ∀ f ∈ r.plant.fans, r.Owns s f.token →
    f.core.hasReturned = true ∧ ∀ l ∈ f.core.lanes, l.hasEnded = true
  relays : ∀ y ∈ r.plant.relays, r.Owns s y.token → y.hasEnded = true
  consumers : ∀ c ∈ r.plant.consumers, r.Owns s c.token → c.hasReturned = true
  links : ∀ x, r.streams[s]? = some x → ∀ l ∈ r.plant.links, l.watched = x.closed → l.ended = true
  pipings : ∀ q ∈ r.pipings, q.stream = s → q.phase = .returned
  runs : ∀ run ∈ r.runs, run.stream = s → run.phase = .returned

/-! ## Whose task it is -/

theorem Moored.same_stream (h : r.Moored) (hfound : r.streams[s]? = some x)
    (ht : r.streams[t]? = some y) (hsame : x.closed = y.closed) : s = t := by
  have hclosed (i : Nat) (z : Stream) (hi : r.streams[i]? = some z) :
      (r.leashes.map Leash.closed)[i]? = some z.closed := by
    rw [List.getElem?_map, leash_at hi]
    rfl
  have hs := hclosed s x hfound
  refine (List.getElem?_inj (List.getElem?_eq_some_iff.mp hs).1 h.distinct).mp ?_
  rw [hs, hclosed t y ht, hsame]

theorem Moored.owner_unique (h : r.Moored) (hown : r.Owns s token) (hown' : r.Owns t token) :
    s = t := by
  obtain ⟨x, hfound, htied⟩ := hown
  obtain ⟨y, ht, htied'⟩ := hown'
  exact h.same_stream hfound ht (h.plant.tied_once htied htied')

/-- The stream on whose leash a task runs. -/
theorem Moored.holder (h : r.Moored) {q : Post} (hmem : q ∈ r.plant.posts) :
    ∃ (s : Nat) (x : Stream), r.streams[s]? = some x ∧ x.leash.Holds r.plant q := by
  obtain ⟨l, hamong, hholds⟩ := h.plant.posts q hmem
  obtain ⟨x, hmem, rfl⟩ := List.mem_map.mp hamong
  obtain ⟨s, hfound⟩ := List.mem_iff_getElem?.mp hmem
  exact ⟨s, x, hfound, hholds⟩

/-! ## Registries at rest -/

/-- Of a session that was cancelled or whose stream was destroyed, both is true when nothing can
move any more. -/
theorem Sound.gone {run : Run} (h : r.Sound) (htends : r.Tends s token x run) (hsettled : r.Settled)
    (hcause : r.plant.tokens.cancelled token = true ∨ x.destroyed = true) :
    x.destroyed = true ∧ r.plant.tokens.cancelled token = true := by
  obtain ⟨tasks, hactive⟩ | ⟨hgone, hfired⟩ := htends.place
  · obtain ⟨⟨y, hfound, hlive⟩, huncancelled⟩ := h.alive hsettled hactive
    obtain rfl := Option.some.inj (htends.stream.symm.trans hfound)
    obtain hcancelled | hgone := hcause
    · cases huncancelled.symm.trans hcancelled
    · cases hlive.symm.trans hgone
  · exact ⟨hgone, Tokens.cancelled_of_fired hfired⟩

/-- A relay on the leash of a destroyed stream does not wait for room. -/
theorem Moored.relay_ended (h : r.Moored) (hfound : r.streams[s]? = some x)
    (hgone : x.destroyed = true) {k : Nat} {y : Relay} (hk : r.plant.relays[k]? = some y)
    (htied : r.plant.Ties x.closed y.token) (hrest : r.plant.step (.relay k) = none)
    (hcancelled : r.plant.tokens.cancelled y.token = true) : y.hasEnded = true := by
  apply Relay.ended_of_rest hk hrest hcancelled
  intro j htarget
  have hmem : y.post ∈ r.plant.posts := by
    apply List.mem_append_left
    exact List.mem_append_right _ (List.mem_map_of_mem (List.mem_of_getElem? hk))
  obtain ⟨t, z, ht, hholds⟩ := h.holder hmem
  obtain rfl := h.owner_unique ⟨x, hfound, htied⟩ ⟨z, ht, hholds.tied⟩
  obtain rfl := Option.some.inj (hfound.symm.trans ht)
  obtain ⟨side, heq⟩ := hholds.targets _ htarget
  cases heq
  exact (h.streams _ x hfound).shut hgone side

theorem Moored.session_ended {run : Run} (h : r.Moored) (htidy : r.Tidy)
    (htends : r.Tends s token x run)
    (hsettled : r.Settled) (hgone : x.destroyed = true) : r.Over s := by
  have hrest (t : Plant.Task) : r.plant.step t = none :=
    Option.map_eq_none_iff.mp (hsettled (.plant t))
  have hclosed : r.plant.tokens.cancelled x.closed = true :=
    Tokens.cancelled_of_fired (htends.driven.sealed.destroyed hgone)
  have htied {token : Nat} (hown : r.Owns s token) : r.plant.Ties x.closed token := by
    obtain ⟨y, hfound, htied⟩ := hown
    obtain rfl := Option.some.inj (htends.stream.symm.trans hfound)
    exact htied
  -- Whatever runs on the leash has its token cancelled by now.
  have hcancelled {token : Nat} (htied : r.plant.Ties x.closed token) :
      r.plant.tokens.cancelled token = true :=
    htied.cancelled_of_rest (fun k => hrest (.link k)) hclosed
  have hreturned {k : Nat} {f : Fan} (hfound : r.plant.fans[k]? = some f)
      (htied : r.plant.Ties x.closed f.token) : f.core.phase = .returned :=
    Fan.returned_of_rest hfound (hrest (.loop k)) (hcancelled htied)
  constructor
  case fans =>
    intro f hmem hown
    obtain ⟨k, hfound⟩ := List.mem_iff_getElem?.mp hmem
    have hphase := hreturned hfound (htied hown)
    exact ⟨beq_iff_eq.mpr hphase, h.plant.quiet f hmem hphase⟩
  case relays =>
    intro y hmem hown
    obtain ⟨k, hfound⟩ := List.mem_iff_getElem?.mp hmem
    exact h.relay_ended htends.stream hgone hfound (htied hown) (hrest _) (hcancelled (htied hown))
  case consumers =>
    intro c hmem hown
    obtain ⟨k, hfound⟩ := List.mem_iff_getElem?.mp hmem
    exact Consumer.returned_of_rest hfound (hrest (.consumer k)) (hcancelled (htied hown))
  case links =>
    intro y hfound l hmem hwatched
    obtain rfl := Option.some.inj (htends.stream.symm.trans hfound)
    obtain ⟨k, hfound⟩ := List.mem_iff_getElem?.mp hmem
    exact Link.ended_of_rest hfound (hrest (.link k)) (hwatched ▸ hclosed)
  case pipings =>
    rintro q hmem rfl
    obtain ⟨k, hfound⟩ := List.mem_iff_getElem?.mp hmem
    have hstuck : r.stepPiping k = none := hsettled (.piping k)
    cases hphase : q.phase with
    | returned => rfl
    | called => simp [Registry.stepPiping, hfound, htends.stream, hphase] at hstuck
    | running fan =>
      obtain ⟨l, f, hleash, hfan, hholds⟩ := h.pipings q hmem fan hphase
      rw [leash_at htends.stream] at hleash
      cases hleash
      have hended : f.core.hasReturned = true := beq_iff_eq.mpr (hreturned hfan hholds.tied)
      simp [Registry.stepPiping, hfound, htends.stream, hphase, hfan, hended] at hstuck
  case runs =>
    intro run' hmem hown
    obtain ⟨k, hfound⟩ := List.mem_iff_getElem?.mp hmem
    obtain ⟨_, _, htends'⟩ := htidy.tends hfound
    obtain rfl : k = s := htends'.driven.stream.symm.trans hown
    apply Decidable.byContradiction
    intro hunfinished
    obtain ⟨session, hserves, hwaits⟩ := htends'.waits hsettled hunfinished
    obtain rfl := Option.some.inj (htends.stream.symm.trans htends'.stream)
    cases hwaits.symm.trans (hserves.cancelled (fun k => hrest (.link k)) (.inr hclosed))

/-! ## In every history -/

/-- Every task is of one session. Where the token of a session is cancelled or its stream destroyed,
and nothing can move, all of its tasks are over. -/
theorem session_over (hperformed : (new failFast).perform as = some r) :
    (∀ q ∈ r.plant.posts, ∃ s, r.Owns s q.token ∧ ∀ t, r.Owns t q.token → t = s)
    ∧ (∀ q ∈ r.pipings, ∀ k, q.phase = .running k →
      ∃ f, r.plant.fans[k]? = some f ∧ r.Owns q.stream f.token)
    ∧ (∀ s x, r.streams[s]? = some x → ∀ c ∈ x.consumers,
      ∃ d, r.plant.consumers[c]? = some d ∧ r.Owns s d.token)
    ∧ (∀ l ∈ r.plant.links, ∃ (s : Nat) (x : Stream), r.streams[s]? = some x
      ∧ l.watched = x.closed)
    ∧ ∀ session ∈ r.sessions, (r.plant.tokens.cancelled session.token = true
        ∨ ∃ x, r.streams[session.stream]? = some x ∧ x.destroyed = true) →
      r.Settled → r.Over session.stream := by
  have hsound := (Sound.new failFast).perform hperformed
  have h := Moored.perform hperformed
  refine ⟨?_, ?_, ?_, ?_, ?_⟩
  · intro q hmem
    obtain ⟨s, x, hfound, hholds⟩ := h.holder hmem
    have hown : r.Owns s q.token := ⟨x, hfound, hholds.tied⟩
    exact ⟨s, hown, fun t hother => h.owner_unique hother hown⟩
  · intro q hmem k hrunning
    obtain ⟨l, f, hleash, hfound, hholds⟩ := h.pipings q hmem k hrunning
    rw [leashes, List.getElem?_map] at hleash
    obtain ⟨x, hs, rfl⟩ := Option.map_eq_some_iff.mp hleash
    exact ⟨f, hfound, x, hs, hholds.tied⟩
  · intro s x hfound c hmem
    obtain ⟨token, ⟨d, hc, rfl⟩, hholds⟩ := (h.streams s x hfound).consumers c hmem
    exact ⟨d, hc, x, hfound, hholds.tied⟩
  · intro l hmem
    obtain ⟨⟨leash, hamong, hwatched⟩, -⟩ := h.plant.links l.ends (List.mem_map_of_mem hmem)
    obtain ⟨x, hmem, rfl⟩ := List.mem_map.mp hamong
    obtain ⟨s, hfound⟩ := List.mem_iff_getElem?.mp hmem
    exact ⟨s, x, hfound, hwatched⟩
  · intro session hmem hcause hsettled
    obtain ⟨k, hk⟩ := List.mem_iff_getElem?.mp hmem
    have hbound : k < r.streams.length := hsound.sessions ▸ (List.getElem?_eq_some_iff.mp hk).1
    obtain ⟨token, x, run, htends⟩ := hsound.tended k hbound
    obtain rfl := Option.some.inj (hk.symm.trans htends.session)
    have hcause : r.plant.tokens.cancelled token = true ∨ x.destroyed = true := by
      refine hcause.imp_right ?_
      rintro ⟨y, hfound, hgone⟩
      obtain rfl := Option.some.inj (htends.stream.symm.trans hfound)
      exact hgone
    exact h.session_ended hsound.toTidy htends hsettled (hsound.gone htends hsettled hcause).1

/-- A track goes to two processors, and its relay has a chunk in hand. -/
def busy : List Act :=
  let packet (n : UInt8) : Bytes := [0x80, 0x6F, 0, n, 0, 0, 0, n, 0, 0, 0, 1, 0xF8]
  [.event (.token none), .event (.start 1 (.ok [.stall, .consume])), .event (.step (.run 0)),
    .event (.pipe 0 .opus 3 (.script [.packet (packet 1), .packet (packet 2)] true)),
    .event (.step (.piping 0))]
  ++ [.loop 2, .lane 2 0, .lane 2 0, .loop 2, .lane 2 0, .lane 2 0, .relay 0, .relay 0].map
    fun t => .event (.step (.plant t))

/-- Then the stream is destroyed, one more track is piped into it, and everything comes to rest. -/
def demolition : List Act :=
  busy ++ [.destroy 0, .event (.pipe 0 .vp8 3 (.script [] true)), .event (.step (.piping 1))]
  ++ ([.link 0, .link 1, .link 2, .consumer 0, .consumer 0, .consumer 1, .consumer 1, .relay 0,
      .relay 0, .relay 0, .loop 0, .loop 0, .loop 1, .loop 1, .loop 2, .loop 2, .loop 3,
      .loop 3].map fun t => .event (.step (.plant t)))
  ++ [.event (.step (.piping 0)), .event (.step (.piping 1)), .event (.step (.run 0))]

theorem session_over_after_demolition :
    ∃ r, (new true).perform demolition = some r ∧ r.Settled ∧ r.plant.fans.length = 4
      ∧ r.plant.relays.length = 1 ∧ r.pipings.length = 2 ∧ r.Over 0 := by
  obtain ⟨r, hperformed⟩ := Option.isSome_iff_exists.mp
    (by decide +kernel : ((new true).perform demolition).isSome = true)
  have hfacts : ((new true).perform demolition).all fun r =>
      r.Settled ∧ r.plant.fans.length = 4 ∧ r.plant.relays.length = 1 ∧ r.pipings.length = 2
        ∧ ⟨0, 3⟩ ∈ r.sessions ∧ r.streams[0]?.any Stream.destroyed = true := by decide +kernel
  rw [hperformed, Option.all_some, decide_eq_true_eq] at hfacts
  obtain ⟨hsettled, hfans, hrelays, hpipings, hstarted, hgone⟩ := hfacts
  obtain ⟨x, hfound, hgone⟩ := (Option.any_eq_true _ _).mp hgone
  obtain ⟨-, -, -, -, hends⟩ := session_over hperformed
  exact ⟨r, hperformed, hsettled, hfans, hrelays, hpipings,
    hends ⟨0, 3⟩ hstarted (.inr ⟨x, hfound, hgone⟩) hsettled⟩

end Headend.Ingest.Registry

import Headend.Proofs.Plant.Rest

/-!
# What brings the tasks of a plant to their end

A `Leash` is a token with two pipes that are closed together with it. A plant is `Tethered` when the
token of every task is tied to some leash, and when a relay waits for no pipe but those of its
leash. Then a plant at rest has no task left on a leash that was pulled: fan-outs, consumers and
links notice the token, and what waits for room in a pipe notices that it is closed.
-/

namespace Headend

/-! ## Fan-outs that have returned -/

namespace Media.Fanout

variable {cancelled : Bool} {f f' : Fanout} {es : List Event}

/-- No worker outlives the loop. -/
def Quiet (f : Fanout) : Prop := f.phase = .returned → ∀ l ∈ f.lanes, l.hasEnded = true

theorem Quiet.idle {i : Nat} {l : Lane} (h : f.Quiet) (hlane : f.lanes[i]? = some l)
    (hlive : l.hasEnded = false) (l' : Lane) : (f.setLane i l').Quiet := by
  intro hreturned
  have hended := h hreturned l (List.mem_of_getElem? hlane)
  cases hlive.symm.trans hended

theorem Step.quiet (hstep : Step cancelled f es f') (h : f.Quiet) : f'.Quiet := by
  cases hstep with
  | stay => exact h
  | spread hlive hreading => exact fun hreturned => nomatch hreading.symm.trans hreturned
  | offer hlive hoffering => exact nofun
  | hold | drain | offered => exact nofun
  | abort =>
    intro _ l hmem
    obtain ⟨l', -, rfl⟩ := List.mem_map.mp hmem
    rfl
  | done hdraining hall => exact fun _ => hall
  | hand hlane => exact h.idle hlane rfl _
  | retire hlane => exact h.idle hlane rfl _
  | free hlane => exact h.idle hlane rfl _
  | fail hlane => exact h.idle hlane rfl _
  | crash hlane => exact h.idle hlane rfl _

theorem Quiet.new (lossless : Bool) (lanes : Nat) : (Fanout.new lossless lanes).Quiet := nofun

end Media.Fanout

namespace Plant

open Media

variable {p p' p'' : Plant} {k : Nat}

/-! ## Tasks and leashes -/

/-- The token of a task, and the pipes it may wait for whether that is cancelled or not. -/
structure Post where
  token : Nat
  targets : List (Option Nat)

def Fan.post (f : Fan) : Post := ⟨f.token, []⟩

def Relay.post (r : Relay) : Post := ⟨r.token, r.sinks.map Sink.target⟩

def Consumer.post (c : Consumer) : Post := ⟨c.token, []⟩

def posts (p : Plant) : List Post :=
  p.fans.map Fan.post ++ p.relays.map Relay.post ++ p.consumers.map Consumer.post

def Link.ends (l : Link) : Nat × Nat := (l.watched, l.linked)

structure Leash where
  closed : Nat
  pipes : Sides Nat

/-- The task ends when the leash is pulled. -/
structure Leash.Holds (l : Leash) (p : Plant) (q : Post) : Prop where
  size : q.token < p.tokens.all.length
  tied : p.Ties l.closed q.token
  targets : ∀ t ∈ q.targets, ∃ side, t = some (l.pipes.get side)

theorem Leash.Holds.grow {l : Leash} {q : Post} (h : l.Holds p q) (hg : p.Grows p') :
    l.Holds p' q where
  size := Nat.lt_of_lt_of_le h.size hg.tokens.size
  tied := hg.ties _ _ h.size h.tied
  targets := h.targets

/-- Every task is on a leash, and every link watches one. -/
structure Tethered (p : Plant) (ls : List Leash) : Prop where
  leashes : ∀ l ∈ ls, l.closed < p.tokens.all.length
  posts : ∀ q ∈ p.posts, ∃ l ∈ ls, l.Holds p q
  links : ∀ e ∈ p.links.map Link.ends,
    (∃ l ∈ ls, e.1 = l.closed) ∧ e.2 < p.tokens.all.length
  unique : ((p.links.map Link.ends).map Prod.snd).Nodup
  quiet : ∀ f ∈ p.fans, f.core.Quiet

/-! ## Growth with all tasks -/

/-- A later plant, whose fan-outs are numbered as before. -/
structure Extends (p p' : Plant) : Prop extends p.Grows p' where
  pipes : p.pipes.Keeps p'.pipes
  fans : ∀ (k : Nat) (f : Fan), p.fans[k]? = some f →
    ∃ f', p'.fans[k]? = some f' ∧ f'.token = f.token

theorem Extends.of_fans (hg : p.Grows p') (hpipes : p.pipes.Keeps p'.pipes)
    (hfans : p'.fans = p.fans) : p.Extends p' :=
  ⟨hg, hpipes, fun _ f hfound => ⟨f, hfans ▸ hfound, rfl⟩⟩

/-- There are new fan-outs. -/
theorem Extends.of_append {new : List Fan} (hg : p.Grows p') (hpipes : p.pipes.Keeps p'.pipes)
    (hfans : p'.fans = p.fans ++ new) : p.Extends p' := by
  refine ⟨hg, hpipes, fun k f hfound => ⟨f, ?_, rfl⟩⟩
  rw [hfans, List.getElem?_append_left (List.getElem?_eq_some_iff.mp hfound).1, hfound]

theorem Extends.refl (p : Plant) : p.Extends p := .of_fans (.refl p) (.refl _) rfl

theorem Extends.trans (he : p.Extends p') (he' : p'.Extends p'') : p.Extends p'' where
  toGrows := he.toGrows.trans he'.toGrows
  pipes := he.pipes.trans he'.pipes
  fans k f hfound := by
    obtain ⟨f', hfound', hsame⟩ := he.fans k f hfound
    obtain ⟨f'', hfound'', hsame'⟩ := he'.fans k f' hfound'
    exact ⟨f'', hfound'', hsame'.trans hsame⟩

/-- A fan-out stays on its leash. -/
theorem Extends.held {l : Leash} {f : Fan} (he : p.Extends p') (hfound : p.fans[k]? = some f)
    (h : l.Holds p f.post) : ∃ f', p'.fans[k]? = some f' ∧ l.Holds p' f'.post := by
  obtain ⟨f', hfound', htoken⟩ := he.fans k f hfound
  have hpost : f'.post = f.post := congrArg (Post.mk · []) htoken
  exact ⟨f', hfound', hpost ▸ h.grow he.toGrows⟩

/-- A later plant with the same tasks. -/
structure Carries (p p' : Plant) : Prop extends p.Extends p' where
  posts : p'.posts = p.posts
  links : p'.links.map Link.ends = p.links.map Link.ends
  quiet : (∀ f ∈ p.fans, f.core.Quiet) → ∀ f ∈ p'.fans, f.core.Quiet

theorem Carries.refl (p : Plant) : p.Carries p := ⟨.refl p, rfl, rfl, id⟩

theorem Carries.trans (hc : p.Carries p') (hc' : p'.Carries p'') : p.Carries p'' where
  toExtends := hc.toExtends.trans hc'.toExtends
  posts := hc'.posts.trans hc.posts
  links := hc'.links.trans hc.links
  quiet := hc'.quiet ∘ hc.quiet

/-- Only tokens and pipes change. -/
theorem Carries.of_tokens (hg : p.Grows p') (hpipes : p.pipes.Keeps p'.pipes)
    (hfans : p'.fans = p.fans) (hrelays : p'.relays = p.relays)
    (hconsumers : p'.consumers = p.consumers) (hlinks : p'.links = p.links) : p.Carries p' where
  toExtends := .of_fans hg hpipes hfans
  posts := by rw [Plant.posts, hfans, hrelays, hconsumers, ← Plant.posts]
  links := by rw [hlinks]
  quiet h := hfans ▸ h

theorem Carries.cancel (p : Plant) (token : Nat) : p.Carries (p.cancel token) :=
  .of_tokens (.cancel p token) (.refl _) rfl rfl rfl rfl

theorem Carries.freshToken (p : Plant) : p.Carries p.freshToken.1 :=
  .of_tokens (.freshToken p) (.refl _) rfl rfl rfl rfl

theorem Carries.childToken (p : Plant) (parent : Nat) : p.Carries (p.childToken parent).1 :=
  .of_tokens (.childToken p parent) (.refl _) rfl rfl rfl rfl

theorem Carries.usePipes {pipes : Pipes} (hkeeps : p.pipes.Keeps pipes) :
    p.Carries { p with pipes := pipes } :=
  .of_tokens (.of_eq rfl rfl rfl) hkeeps rfl rfl rfl rfl

theorem Carries.closePipes (p : Plant) (ks : Sides Nat) :
    p.Carries (p.updatePipes ks Pipe.close) :=
  .usePipes (.trans (.close _ _) (.close _ _))

theorem Carries.dropWriters (p : Plant) (ks : Sides Nat) :
    p.Carries (p.updatePipes ks Pipe.dropWriter) :=
  .usePipes (.trans (.dropWriter _ _) (.dropWriter _ _))

/-! ### Steps -/

theorem Carries.stepFan {run : Fan → Option (Fan × Pipes)} (h : p.stepFan k run = some p')
    (hmoves : ∀ f f' pipes, run f = some (f', pipes) →
      f'.token = f.token ∧ p.pipes.Keeps pipes ∧ (f.core.Quiet → f'.core.Quiet)) :
    p.Carries p' := by
  have hg := Grows.stepFan h
  simp only [Plant.stepFan, Option.bind_eq_bind, Option.bind_eq_some_iff] at h
  obtain ⟨f, hfound, ⟨f', pipes⟩, hstep, h⟩ := h
  obtain ⟨htoken, hkeeps, hquiet⟩ := hmoves f f' pipes hstep
  cases h
  have hpost : f'.post = f.post := congrArg (Post.mk · []) htoken
  constructor
  case toExtends =>
    refine ⟨hg, hkeeps, fun j e hj => ?_⟩
    by_cases hsame : k = j
    · subst hsame
      obtain rfl := Option.some.inj (hfound.symm.trans hj)
      have hbound := (List.getElem?_eq_some_iff.mp hfound).1
      exact ⟨f', List.getElem?_set_self hbound, htoken⟩
    · exact ⟨e, (List.getElem?_set_ne hsame).trans hj, rfl⟩
  case posts =>
    simp only [Plant.posts]
    rw [Fan.map_set_of_eq hfound hpost]
  case links => rfl
  case quiet =>
    intro h e hmem
    obtain hold | rfl := List.mem_or_eq_of_mem_set hmem
    · exact h e hold
    · exact hquiet (h f (List.mem_of_getElem? hfound))

theorem Carries.stepRelay (h : p.stepRelay k = some p') : p.Carries p' := by
  have hg := Grows.stepRelay h
  simp only [Plant.stepRelay, Option.bind_eq_bind, Option.bind_eq_some_iff] at h
  obtain ⟨r, hfound, ⟨r', pipes⟩, hstep, h⟩ := h
  obtain ⟨hremains, hkeeps⟩ := Relay.step_remains hstep
  cases h
  have hpost : r'.post = r.post := by
    rw [Relay.post, hremains.token, hremains.targets, ← Relay.post]
  refine ⟨.of_fans hg hkeeps rfl, ?_, rfl, id⟩
  simp only [Plant.posts]
  rw [Fan.map_set_of_eq hfound hpost]

/-- A consumer moves, and may cancel its token. -/
theorem Carries.consumers {c d : Consumer} {tokens : Tokens} {pipes : Pipes}
    (hfound : p.consumers[k]? = some c) (htoken : d.token = c.token) (hkeeps : p.pipes.Keeps pipes)
    (hg : p.Grows { p with consumers := p.consumers.set k d, pipes := pipes, tokens := tokens }) :
    p.Carries { p with consumers := p.consumers.set k d, pipes := pipes, tokens := tokens } := by
  have hpost : d.post = c.post := congrArg (Post.mk · []) htoken
  refine ⟨.of_fans hg hkeeps rfl, ?_, rfl, id⟩
  simp only [Plant.posts]
  rw [Fan.map_set_of_eq hfound hpost]

theorem Carries.stepConsumer (h : p.stepConsumer k = some p') : p.Carries p' := by
  have hg := Grows.stepConsumer h
  simp only [Plant.stepConsumer, Option.bind_eq_bind, Option.bind_eq_some_iff] at h
  obtain ⟨c, hfound, ⟨d, pipes⟩, hstep, h⟩ := h
  cases h
  exact .consumers hfound (Consumer.step_token hstep) (Consumer.step_keeps hstep) hg

theorem Carries.stepReceive {side : Side} (h : p.stepReceive k side = some p') :
    p.Carries p' := by
  have hg := Grows.stepReceive h
  simp only [Plant.stepReceive, Option.bind_eq_bind, Option.bind_eq_some_iff] at h
  obtain ⟨c, hfound, ⟨d, pipes⟩, hstep, h⟩ := h
  cases h
  exact .consumers hfound (Consumer.receive_token hstep) (Consumer.receive_keeps hstep) hg

theorem Carries.exit (h : p.exit k = some p') : p.Carries p' := by
  have hg := Grows.exit h
  simp only [Plant.exit, Option.bind_eq_bind, Option.bind_eq_some_iff] at h
  obtain ⟨c, hfound, h⟩ := h
  split at h <;> cases h
  exact .consumers hfound rfl (c.conclude_keeps p.pipes) hg

theorem Carries.stepLink (h : p.stepLink k = some p') : p.Carries p' := by
  have hg := Grows.stepLink h
  simp only [Plant.stepLink, Option.bind_eq_bind, Option.bind_eq_some_iff] at h
  obtain ⟨l, hfound, h⟩ := h
  have hends : (p.links.set k { l with ended := true }).map Link.ends = p.links.map Link.ends :=
    Fan.map_set_of_eq hfound rfl
  split at h
  · cases h
  split at h
  · cases h
    exact ⟨.of_fans hg (.refl _) rfl, rfl, hends, id⟩
  split at h <;> cases h
  exact ⟨.of_fans hg (.refl _) rfl, rfl, hends, id⟩

theorem Carries.step {t : Task} (h : p.step t = some p') : p.Carries p' := by
  cases t with
  | lane k i =>
    refine .stepFan h fun f f' pipes hstep => ?_
    have hlane := Fan.lane_cases hstep
    have hcore : Fanout.Step false f.core _ f'.core := hlane.core
    exact ⟨hlane.token, hlane.keeps, hcore.quiet⟩
  | loop k =>
    refine .stepFan h fun f f' pipes hstep => ?_
    have hloop := Fan.loop_cases hstep
    exact ⟨hloop.token, hloop.keeps, hloop.core.quiet⟩
  | relay k => exact .stepRelay h
  | receive k side => exact .stepReceive h
  | consumer k => exact .stepConsumer h
  | link k => exact .stepLink h

/-! ## Tethered plants -/

namespace Tethered

variable {ls ls' : List Leash} {l : Leash} {token : Nat}

theorem empty : Plant.empty.freshToken.1.Tethered [] where
  leashes := nofun
  posts := nofun
  links := nofun
  unique := .nil
  quiet := nofun

theorem carry (h : p.Tethered ls) (hc : p.Carries p') : p'.Tethered ls where
  leashes l hmem := Nat.lt_of_lt_of_le (h.leashes l hmem) hc.tokens.size
  posts q hmem := by
    obtain ⟨l, hamong, hholds⟩ := h.posts q (hc.posts ▸ hmem)
    exact ⟨l, hamong, hholds.grow hc.toGrows⟩
  links e hmem := by
    obtain ⟨hwatched, hsize⟩ := h.links e (hc.links ▸ hmem)
    exact ⟨hwatched, Nat.lt_of_lt_of_le hsize hc.tokens.size⟩
  unique := hc.links ▸ h.unique
  quiet := hc.quiet h.quiet

theorem more (h : p.Tethered ls) (hbound : l.closed < p.tokens.all.length) :
    p.Tethered (ls ++ [l]) where
  leashes l' hmem := by
    obtain hold | hnew := List.mem_append.mp hmem
    · exact h.leashes l' hold
    · exact List.mem_singleton.mp hnew ▸ hbound
  posts q hmem := by
    obtain ⟨l', hamong, hholds⟩ := h.posts q hmem
    exact ⟨l', List.mem_append_left _ hamong, hholds⟩
  links e hmem := by
    obtain ⟨⟨l', hamong, hwatched⟩, hsize⟩ := h.links e hmem
    exact ⟨⟨l', List.mem_append_left _ hamong, hwatched⟩, hsize⟩
  unique := h.unique
  quiet := h.quiet

/-- A token is tied to one leash only. -/
theorem tied_once {a b : Nat} (h : p.Tethered ls) (htied : p.Ties a token)
    (htied' : p.Ties b token) :
    a = b := by
  obtain ⟨i, ended, hlink, -⟩ := htied
  obtain ⟨j, ended', hlink', -⟩ := htied'
  have hlinked (k watched : Nat) (ended : Bool)
      (hk : p.links[k]? = some ⟨watched, token, ended⟩) :
      ((p.links.map Link.ends).map Prod.snd)[k]? = some token := by
    rw [List.getElem?_map, List.getElem?_map, hk]
    rfl
  have hi := hlinked i a ended hlink
  have hsame := hi.trans (hlinked j b ended' hlink').symm
  obtain rfl := (List.getElem?_inj (List.getElem?_eq_some_iff.mp hi).1 h.unique).mp hsame
  exact congrArg Link.watched (Option.some.inj (hlink.symm.trans hlink'))

/-! ### New tasks -/

theorem linkToken (h : p.Tethered ls) (parent : Nat) (hamong : l ∈ ls) :
    (p.linkToken parent l.closed).1.Tethered ls where
  leashes l hmem := Nat.lt_of_lt_of_le (h.leashes l hmem) (Grows.linkToken p _ _).tokens.size
  posts q hmem := by
    obtain ⟨l', hamong', hholds⟩ := h.posts q hmem
    exact ⟨l', hamong', hholds.grow (.linkToken p parent l.closed)⟩
  links e hmem := by
    have hsize := (Grows.linkToken p parent l.closed).tokens.size
    rw [Plant.linkToken, List.map_append, List.mem_append] at hmem
    obtain hold | hnew := hmem
    · obtain ⟨hwatched, hbound⟩ := h.links e hold
      exact ⟨hwatched, Nat.lt_of_lt_of_le hbound hsize⟩
    · rw [List.map_singleton, List.mem_singleton] at hnew
      subst hnew
      refine ⟨⟨l, hamong, rfl⟩, ?_⟩
      simp [Plant.linkToken, Plant.childToken, Tokens.child, Link.ends]
  unique := by
    -- The new token is none of those that are linked already.
    have hfresh : p.tokens.all.length ∉ (p.links.map Link.ends).map Prod.snd := by
      intro hmem
      obtain ⟨e, hamong, hlinked⟩ := List.mem_map.mp hmem
      exact Nat.lt_irrefl _ (hlinked ▸ (h.links e hamong).2)
    rw [Plant.linkToken, List.map_append, List.map_append]
    refine List.nodup_append.mpr ⟨h.unique, List.pairwise_singleton _ _, ?_⟩
    intro t hmem t' hnew hsame
    have hsame : t = p.tokens.all.length := hsame.trans (List.mem_singleton.mp hnew)
    exact hfresh (hsame ▸ hmem)
  quiet := h.quiet

/-- A new task may be added on a leash. -/
theorem add (h : p.Tethered ls) (hamong : l ∈ ls) {q : Post} (hholds : l.Holds p q)
    (htokens : p'.tokens = p.tokens) (hlinks : p'.links = p.links)
    (hposts : ∀ q' ∈ p'.posts, q' ∈ p.posts ∨ q' = q) (hg : p.Grows p')
    (hquiet : ∀ f ∈ p'.fans, f ∈ p.fans ∨ f.core.Quiet) : p'.Tethered ls where
  leashes l hmem := htokens ▸ h.leashes l hmem
  posts q' hmem := by
    obtain hold | rfl := hposts q' hmem
    · obtain ⟨l', hamong', hholds'⟩ := h.posts q' hold
      exact ⟨l', hamong', hholds'.grow hg⟩
    · exact ⟨l, hamong, hholds.grow hg⟩
  links e hmem := by
    rw [htokens]
    exact h.links e (hlinks ▸ hmem)
  unique := hlinks ▸ h.unique
  quiet f hmem := (hquiet f hmem).elim (h.quiet f) id

theorem addFan (h : p.Tethered ls) (hamong : l ∈ ls) (source : Source) (lossless : Bool)
    (sinks : List Sink) (hholds : l.Holds p ⟨token, []⟩) :
    (p.addFan (.new token source lossless sinks)).1.Tethered ls := by
  refine h.add hamong hholds rfl rfl ?_ (.of_eq rfl rfl rfl) ?_
  · intro q hmem
    simp only [Plant.posts, Plant.addFan, List.map_append, List.mem_append, List.map_singleton,
      List.mem_singleton] at hmem ⊢
    obtain ((hold | hnew) | hold) | hold := hmem
    · exact .inl (.inl (.inl hold))
    · exact .inr hnew
    · exact .inl (.inl (.inr hold))
    · exact .inl (.inr hold)
  · intro f hmem
    obtain hold | hnew := List.mem_append.mp hmem
    · exact .inl hold
    · exact .inr (List.mem_singleton.mp hnew ▸ .new lossless sinks.length)

theorem addRelay (h : p.Tethered ls) (hamong : l ∈ ls) (r : Relay) (hholds : l.Holds p r.post) :
    (p.addRelay r).1.Tethered ls := by
  refine h.add hamong hholds rfl rfl ?_ (.of_eq rfl rfl rfl) fun _ => .inl
  intro q hmem
  simp only [Plant.posts, Plant.addRelay, List.map_append, List.mem_append, List.map_singleton,
    List.mem_singleton] at hmem ⊢
  obtain (hold | hold | hnew) | hold := hmem
  · exact .inl (.inl (.inl hold))
  · exact .inl (.inl (.inr hold))
  · exact .inr hnew
  · exact .inl (.inr hold)

theorem addConsumer (h : p.Tethered ls) (hamong : l ∈ ls) (c : Consumer)
    (hholds : l.Holds p c.post) : (p.addConsumer c).1.Tethered ls := by
  refine h.add hamong hholds rfl rfl ?_ (.addConsumer p c) fun _ => .inl
  intro q hmem
  simp only [Plant.posts, Plant.addConsumer, List.map_append, List.mem_append, List.map_singleton,
    List.mem_singleton] at hmem ⊢
  obtain hold | hold | hnew := hmem
  · exact .inl (.inl hold)
  · exact .inl (.inr hold)
  · exact .inr hnew

end Tethered

/-! ### Tracks and shared pipes -/

section Track

variable {ls : List Leash} {l : Leash} {token : Nat}

theorem Tethered.pipeTrack (h : p.Tethered ls) (hamong : l ∈ ls) (codec : Codec)
    (source : Source) (republish : Bool) {target : Option Nat}
    (hown : target = none ∨ ∃ side, target = some (l.pipes.get side))
    (hholds : l.Holds p ⟨token, []⟩) :
    (p.pipeTrack codec token source republish target).1.Tethered ls := by
  cases target with
  | none => exact h.addFan hamong _ _ _ hholds
  | some k =>
    simp only [Plant.pipeTrack]
    cases muxerFor codec with
    | none => exact h.addFan hamong _ _ _ hholds
    | some m =>
      -- The relay writes to the pipe of the leash, and to nothing else.
      have hpiped := h.carry (.usePipes (.append p.pipes [.new Pipe.defaultCapacity]))
      have hgrown : p.Grows (p.addPipe Pipe.defaultCapacity).1 := .of_eq rfl rfl rfl
      have hrelayed := hpiped.addRelay hamong (.new token p.pipes.length [.new .forward (some k)])
        ⟨hholds.size, (hholds.grow hgrown).tied, ?_⟩
      · exact hrelayed.addFan hamong _ _ _ (hholds.grow (.of_eq rfl rfl rfl))
      · intro t hmem
        obtain rfl := List.mem_singleton.mp hmem
        exact hown.resolve_left (Option.some_ne_none k)

/-- The fan-out that reads the track comes after those that were there. -/
theorem pipeTrack_fans (p : Plant) (codec : Codec) (token : Nat) (source : Source)
    (republish : Bool) (target : Option Nat) :
    (p.pipeTrack codec token source republish target).2 = p.fans.length
      ∧ ∃ f, (p.pipeTrack codec token source republish target).1.fans = p.fans ++ [f]
        ∧ f.token = token := by
  simp only [Plant.pipeTrack]
  split <;> exact ⟨rfl, _, rfl, rfl⟩

theorem Extends.pipeTrack (p : Plant) (codec : Codec) (token : Nat) (source : Source)
    (republish : Bool) (target : Option Nat) :
    p.Extends (p.pipeTrack codec token source republish target).1 := by
  obtain ⟨-, f, hfans, -⟩ := pipeTrack_fans p codec token source republish target
  refine .of_append (.pipeTrack p codec token source republish target) ?_ hfans
  simp only [Plant.pipeTrack]
  split
  · exact .append _ _
  · exact .refl _
  · exact .refl _

theorem Tethered.share (h : p.Tethered ls) (hamong : l ∈ ls) (count source : Nat)
    (hholds : l.Holds p ⟨token, []⟩) : (p.share count token source).1.Tethered ls := by
  have hpiped := h.carry (.usePipes (.append p.pipes
    (List.replicate count (Pipe.new Pipe.defaultCapacity))))
  exact hpiped.addFan hamong _ _ _ (hholds.grow (.of_eq rfl rfl rfl))

theorem Extends.share (p : Plant) (count token source : Nat) :
    p.Extends (p.share count token source).1 :=
  .of_append (.of_eq rfl rfl rfl) (.append _ _) rfl

theorem Tethered.split (h : p.Tethered ls) (hamong : l ∈ ls) (count : Nat) (pipes : Sides Nat)
    (hholds : l.Holds p ⟨token, []⟩) : (p.split count token pipes).1.Tethered ls := by
  rw [Plant.split]
  split
  · exact h
  · have hvideos := h.share hamong count pipes.video hholds
    exact hvideos.share hamong count pipes.audio (hholds.grow (Extends.share p _ _ _).toGrows)

theorem Extends.split (p : Plant) (count token : Nat) (pipes : Sides Nat) :
    p.Extends (p.split count token pipes).1 := by
  rw [Plant.split]
  split
  · exact .refl p
  · exact (Extends.share p _ _ _).trans (.share _ _ _ _)

end Track

end Plant

end Headend

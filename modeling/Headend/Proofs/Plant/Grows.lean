import Headend.Plant.Track

/-!
# What a plant never takes back

A token that was fired stays so and keeps its ancestors, a consumer keeps the token it works for,
and a link ends only with the token it cancels. `Grows` says so of two plants, the second one later
than the first. Every step of a task grows the plant, and so does every outside event.
-/

namespace Headend

/-! ## Tokens -/

namespace Tokens

variable {t t' t'' : Tokens} {k : Nat}

structure Grows (t t' : Tokens) : Prop where
  size : t.all.length ≤ t'.all.length
  fired : ∀ k, t.fired k = true → t'.fired k = true
  ancestors : ∀ k, k < t.all.length → t'.ancestors k = t.ancestors k

theorem Grows.refl (t : Tokens) : t.Grows t := ⟨Nat.le_refl _, fun _ h => h, fun _ _ => rfl⟩

theorem Grows.trans (hg : t.Grows t') (hg' : t'.Grows t'') : t.Grows t'' where
  size := Nat.le_trans hg.size hg'.size
  fired k h := hg'.fired k (hg.fired k h)
  ancestors k h := (hg'.ancestors k (Nat.lt_of_lt_of_le h hg.size)).trans (hg.ancestors k h)

theorem cancelled_of_fired (h : t.fired k = true) : t.cancelled k = true := by
  rw [cancelled, h, Bool.true_or]

theorem lt_of_cancelled (h : t.cancelled k = true) : k < t.all.length := by
  apply Decidable.byContradiction
  intro houtside
  have hnone : t.all[k]? = none := List.getElem?_eq_none (Nat.not_lt.mp houtside)
  simp [cancelled, fired, ancestors, hnone] at h

/-- A token is cancelled with every ancestor of it. -/
theorem cancelled_of_parent {parent : Nat} (h : t.cancelled parent = true)
    (hancestors : t.ancestors k = parent :: t.ancestors parent) : t.cancelled k = true := by
  simp only [cancelled, hancestors, List.any_cons, Bool.or_eq_true] at h ⊢
  exact .inr h

theorem Grows.cancelled (hg : t.Grows t') (h : t.cancelled k = true) : t'.cancelled k = true := by
  have hkept := hg.ancestors k (lt_of_cancelled h)
  simp only [Tokens.cancelled, hkept, Bool.or_eq_true, List.any_eq_true] at h ⊢
  cases h with
  | inl hown => exact .inl (hg.fired k hown)
  | inr habove =>
    obtain ⟨j, hmem, hfired⟩ := habove
    exact .inr ⟨j, hmem, hg.fired j hfired⟩

theorem Grows.cancel (t : Tokens) (k : Nat) : t.Grows (t.cancel k) where
  size := by simp [Tokens.cancel]
  fired j h := by rw [fired_cancel, h, Bool.or_true]
  ancestors j _ := ancestors_cancel t k j

theorem fired_cancel_self (h : k < t.all.length) : (t.cancel k).fired k = true := by
  simp [fired_cancel, h]

/-- To fire a token again changes nothing. -/
theorem cancel_of_fired (h : t.fired k = true) : t.cancel k = t := by
  cases hfound : t.all[k]? with
  | none => simp [fired, hfound] at h
  | some x =>
    have hfired : x.fired = true := by simpa [Tokens.fired, hfound] using h
    have hsame : ({ x with fired := true } : Token) = x := by rw [← hfired]
    have hmodified : t.all.modify k (fun x => { x with fired := true }) = t.all := by
      apply List.ext_getElem?
      intro j
      by_cases hk : k = j
      · subst hk
        rw [List.getElem?_modify_eq, hfound, Option.map_eq_map, Option.map_some, hsame]
      · rw [List.getElem?_modify_ne _ _ hk]
    rw [cancel, hmodified]

/-! ### New tokens -/

section Append

variable {x : Token}

theorem fired_append (hunfired : x.fired = false) (k : Nat) :
    (Tokens.mk (t.all ++ [x])).fired k = t.fired k := by
  simp only [fired, List.getElem?_append]
  split <;> rename_i hbound
  · rfl
  · rw [List.getElem?_eq_none (l := t.all) (Nat.not_lt.mp hbound)]
    cases k - t.all.length <;> simp [hunfired]

theorem ancestors_append (h : k < t.all.length) :
    (Tokens.mk (t.all ++ [x])).ancestors k = t.ancestors k := by
  simp only [ancestors, List.getElem?_append_left h]

/-- A new token that was not fired cancels no other. -/
theorem cancelled_append (hunfired : x.fired = false) (h : k < t.all.length) :
    (Tokens.mk (t.all ++ [x])).cancelled k = t.cancelled k := by
  have hfired : (Tokens.mk (t.all ++ [x])).fired = t.fired := funext (fired_append hunfired)
  simp only [cancelled, hfired, ancestors_append h]

theorem Grows.append (hunfired : x.fired = false) : t.Grows (Tokens.mk (t.all ++ [x])) where
  size := by simp
  fired k h := (fired_append hunfired k).trans h
  ancestors _ h := ancestors_append h

end Append

theorem Grows.fresh (t : Tokens) : t.Grows t.fresh.1 := .append rfl

theorem Grows.child (t : Tokens) (parent : Nat) : t.Grows (t.child parent).1 := .append rfl

theorem ancestors_child (t : Tokens) {parent : Nat} (h : parent < t.all.length) :
    (t.child parent).1.ancestors (t.child parent).2
      = parent :: (t.child parent).1.ancestors parent := by
  rw [child, ancestors_append h]
  simp [ancestors]

end Tokens

/-! ## Plants -/

namespace Plant

open Media

variable {p p' p'' : Plant}

/-- A link sees to it that `linked` is cancelled with `watched`, or has done so. -/
def Ties (p : Plant) (watched linked : Nat) : Prop :=
  ∃ (k : Nat) (ended : Bool), p.links[k]? = some ⟨watched, linked, ended⟩
    ∧ (ended = true → p.tokens.cancelled linked = true)

def Works (p : Plant) (consumer token : Nat) : Prop :=
  ∃ c, p.consumers[consumer]? = some c ∧ c.token = token

structure Grows (p p' : Plant) : Prop where
  tokens : p.tokens.Grows p'.tokens
  ties : ∀ watched linked, linked < p.tokens.all.length → p.Ties watched linked →
    p'.Ties watched linked
  works : ∀ consumer token, p.Works consumer token → p'.Works consumer token

theorem Grows.refl (p : Plant) : p.Grows p := ⟨.refl _, fun _ _ _ h => h, fun _ _ h => h⟩

theorem Grows.trans (hg : p.Grows p') (hg' : p'.Grows p'') : p.Grows p'' where
  tokens := hg.tokens.trans hg'.tokens
  ties watched linked hsize h :=
    hg'.ties watched linked (Nat.lt_of_lt_of_le hsize hg.tokens.size)
      (hg.ties watched linked hsize h)
  works consumer token h := hg'.works consumer token (hg.works consumer token h)

/-- What leaves the links alone only has to respect tokens and consumers. -/
theorem Grows.of_links (htokens : p.tokens.Grows p'.tokens) (hlinks : p'.links = p.links)
    (hworks : ∀ consumer token, p.Works consumer token → p'.Works consumer token) :
    p.Grows p' where
  tokens := htokens
  ties := by
    rintro watched linked - ⟨k, ended, hlink, hreached⟩
    refine ⟨k, ended, hlinks ▸ hlink, fun h => ?_⟩
    exact htokens.cancelled (hreached h)
  works := hworks

theorem Grows.of_consumers (htokens : p.tokens.Grows p'.tokens) (hlinks : p'.links = p.links)
    (hconsumers : p'.consumers = p.consumers) : p.Grows p' :=
  .of_links htokens hlinks fun _ _ h => by rwa [Works, hconsumers]

/-- Pipes, fan-outs and relays may do what they like. -/
theorem Grows.of_eq (htokens : p'.tokens = p.tokens) (hlinks : p'.links = p.links)
    (hconsumers : p'.consumers = p.consumers) : p.Grows p' :=
  .of_consumers (htokens ▸ .refl _) hlinks hconsumers

theorem works_set {k : Nat} {c d : Consumer} (hk : p.consumers[k]? = some c)
    (hconsumers : p'.consumers = p.consumers.set k d) (htoken : d.token = c.token)
    (consumer session : Nat) (h : p.Works consumer session) : p'.Works consumer session := by
  obtain ⟨e, hfound, hworks⟩ := h
  by_cases hsame : k = consumer
  · subst hsame
    obtain rfl : c = e := Option.some.inj (hk.symm.trans hfound)
    have hbound : k < p.consumers.length := (List.getElem?_eq_some_iff.mp hk).1
    exact ⟨d, by rw [hconsumers, List.getElem?_set_self hbound], htoken.trans hworks⟩
  · exact ⟨e, by rw [hconsumers, List.getElem?_set_ne hsame, hfound], hworks⟩

/-! ### Outside events -/

theorem Grows.cancel (p : Plant) (token : Nat) : p.Grows (p.cancel token) :=
  .of_consumers (.cancel _ _) rfl rfl

theorem Grows.freshToken (p : Plant) : p.Grows p.freshToken.1 := .of_consumers (.fresh _) rfl rfl

theorem Grows.childToken (p : Plant) (parent : Nat) : p.Grows (p.childToken parent).1 :=
  .of_consumers (.child _ _) rfl rfl

theorem Grows.linkToken (p : Plant) (parent watched : Nat) :
    p.Grows (p.linkToken parent watched).1 where
  tokens := .child _ _
  ties := by
    rintro w l - ⟨k, ended, hlink, hreached⟩
    refine ⟨k, ended, ?_, fun h => (Tokens.Grows.child p.tokens parent).cancelled (hreached h)⟩
    exact List.getElem?_append_left (List.getElem?_eq_some_iff.mp hlink).1 ▸ hlink
  works _ _ h := h

theorem ties_linkToken (p : Plant) (parent watched : Nat) :
    (p.linkToken parent watched).1.Ties watched (p.linkToken parent watched).2 :=
  ⟨p.links.length, false, List.getElem?_concat_length, nofun⟩

theorem Grows.addConsumer (p : Plant) (c : Consumer) : p.Grows (p.addConsumer c).1 := by
  refine .of_links (.refl _) rfl ?_
  rintro consumer token ⟨d, hfound, hworks⟩
  have hbound := (List.getElem?_eq_some_iff.mp hfound).1
  exact ⟨d, (List.getElem?_append_left hbound).trans hfound, hworks⟩

theorem works_addConsumer (p : Plant) (c : Consumer) :
    (p.addConsumer c).1.Works (p.addConsumer c).2 c.token :=
  ⟨c, List.getElem?_concat_length, rfl⟩

theorem Grows.updatePipes (p : Plant) (ks : Sides Nat) (f : Pipe → Pipe) :
    p.Grows (p.updatePipes ks f) := .of_eq rfl rfl rfl

theorem split_tokens (p : Plant) (count token : Nat) (pipes : Sides Nat) :
    (p.split count token pipes).1.tokens = p.tokens := by
  rw [Plant.split]
  split <;> rfl

theorem length_split (p : Plant) (count token : Nat) (pipes : Sides Nat) :
    (p.split count token pipes).2.length = count := by
  rw [Plant.split]
  split
  case isTrue hsingle => exact hsingle.symm
  case isFalse => simp [share]

theorem Grows.split (p : Plant) (count token : Nat) (pipes : Sides Nat) :
    p.Grows (p.split count token pipes).1 := by
  rw [Plant.split]
  split
  · exact .refl p
  · exact .of_eq rfl rfl rfl

theorem Grows.pipeTrack (p : Plant) (codec : Codec) (token : Nat) (source : Source)
    (republish : Bool) (target : Option Nat) :
    p.Grows (p.pipeTrack codec token source republish target).1 := by
  simp only [Plant.pipeTrack]
  split <;> exact .of_eq rfl rfl rfl

/-! ### Steps -/

theorem Consumer.step_token {c d : Consumer} {cancelled : Bool} {pipes pipes' : Pipes}
    (h : c.step cancelled pipes = some (d, pipes')) : d.token = c.token := by
  simp only [Consumer.step] at h
  split at h
  · cases h
    rfl
  · split at h <;> cases h
    rfl
  · cases h

theorem Consumer.receive_token {c d : Consumer} {cancelled : Bool} {side : Side}
    {pipes pipes' : Pipes} (h : c.receive cancelled side pipes = some (d, pipes')) :
    d.token = c.token := by
  simp only [Consumer.receive] at h
  split at h
  · cases h
  · split at h <;> cases h <;> rfl

theorem Grows.stepFan {k : Nat} {run : Fan → Option (Fan × Pipes)}
    (h : p.stepFan k run = some p') : p.Grows p' := by
  simp only [Plant.stepFan, Option.bind_eq_bind, Option.bind_eq_some_iff] at h
  obtain ⟨fan, -, ⟨next, pipes⟩, -, h⟩ := h
  cases h
  exact .of_eq rfl rfl rfl

theorem Grows.stepRelay {k : Nat} (h : p.stepRelay k = some p') : p.Grows p' := by
  simp only [Plant.stepRelay, Option.bind_eq_bind, Option.bind_eq_some_iff] at h
  obtain ⟨relay, -, ⟨next, pipes⟩, -, h⟩ := h
  cases h
  exact .of_eq rfl rfl rfl

theorem Grows.stepReceive {k : Nat} {side : Side} (h : p.stepReceive k side = some p') :
    p.Grows p' := by
  simp only [Plant.stepReceive, Option.bind_eq_bind, Option.bind_eq_some_iff] at h
  obtain ⟨c, hk, ⟨d, pipes⟩, hreceived, h⟩ := h
  cases h
  exact .of_links (.refl _) rfl (works_set hk rfl (Consumer.receive_token hreceived))

/-- A consumer that returns may cancel its token. -/
theorem Grows.return {k : Nat} {c d : Consumer} {cancels : Bool} {pipes : Pipes}
    (hk : p.consumers[k]? = some c) (htoken : d.token = c.token) :
    p.Grows { p with
      consumers := p.consumers.set k d, pipes := pipes,
      tokens := if cancels then p.tokens.cancel d.token else p.tokens } := by
  have htokens : p.tokens.Grows (if cancels then p.tokens.cancel d.token else p.tokens) := by
    split
    · exact .cancel _ _
    · exact .refl _
  exact .of_links htokens rfl (works_set hk rfl htoken)

theorem Grows.stepConsumer {k : Nat} (h : p.stepConsumer k = some p') : p.Grows p' := by
  simp only [Plant.stepConsumer, Option.bind_eq_bind, Option.bind_eq_some_iff] at h
  obtain ⟨c, hk, ⟨d, pipes⟩, hstepped, h⟩ := h
  cases h
  exact .return hk (Consumer.step_token hstepped)

/-- A link ends when its token is cancelled, by itself or by another. -/
theorem ties_end {k : Nat} {l : Link} (hk : p.links[k]? = some l)
    (htokens : p.tokens.Grows p'.tokens)
    (hlinks : p'.links = p.links.set k { l with ended := true })
    (hcancelled : l.linked < p.tokens.all.length → p'.tokens.cancelled l.linked = true) :
    ∀ watched linked, linked < p.tokens.all.length → p.Ties watched linked →
      p'.Ties watched linked := by
  rintro watched linked hsize ⟨j, ended, hlink, hreached⟩
  by_cases hsame : k = j
  · subst hsame
    obtain rfl : l = ⟨watched, linked, ended⟩ := Option.some.inj (hk.symm.trans hlink)
    have hbound : k < p.links.length := (List.getElem?_eq_some_iff.mp hk).1
    exact ⟨k, true, by rw [hlinks, List.getElem?_set_self hbound], fun _ => hcancelled hsize⟩
  · refine ⟨j, ended, by rw [hlinks, List.getElem?_set_ne hsame, hlink], fun h => ?_⟩
    exact htokens.cancelled (hreached h)

theorem Grows.stepLink {k : Nat} (h : p.stepLink k = some p') : p.Grows p' := by
  simp only [Plant.stepLink, Option.bind_eq_bind, Option.bind_eq_some_iff] at h
  obtain ⟨l, hk, h⟩ := h
  split at h
  · cases h
  split at h
  case isTrue =>
    cases h
    have htokens := Tokens.Grows.cancel p.tokens l.linked
    refine ⟨htokens, ties_end hk htokens rfl fun hsize => ?_, fun _ _ h => h⟩
    exact Tokens.cancelled_of_fired (Tokens.fired_cancel_self hsize)
  split at h
  case isTrue hcancelled =>
    cases h
    exact ⟨.refl _, ties_end hk (.refl _) rfl fun _ => hcancelled, fun _ _ h => h⟩
  · cases h

theorem Grows.step {t : Task} (h : p.step t = some p') : p.Grows p' := by
  cases t with
  | lane k i => exact .stepFan h
  | loop k => exact .stepFan h
  | relay k => exact .stepRelay h
  | receive k side => exact .stepReceive h
  | consumer k => exact .stepConsumer h
  | link k => exact .stepLink h

/-! ### Consumers that return on their own -/

/-- A running consumer returns, whatever its policy says. -/
def exit (p : Plant) (k : Nat) : Option Plant := do
  let c ← p.consumers[k]?
  if c.phase = .running then
    let (d, pipes) := c.conclude p.pipes
    let tokens := if d.endsSession then p.tokens.cancel d.token else p.tokens
    some { p with consumers := p.consumers.set k d, pipes := pipes, tokens := tokens }
  else none

theorem Grows.exit {k : Nat} (h : p.exit k = some p') : p.Grows p' := by
  simp only [Plant.exit, Option.bind_eq_bind, Option.bind_eq_some_iff] at h
  obtain ⟨c, hk, h⟩ := h
  split at h <;> cases h
  exact .return hk rfl

end Plant

end Headend

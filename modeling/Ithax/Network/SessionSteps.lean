import Ithax.Network.Client

/-!
# What the programs of the client keep

Parts of the client's programs that keep whatever they find, and the steps of
`EstablishSession`: after its `Connect` it only sends, receives and moves the handshake on,
and installs the session crypto in between. What all of these keep, it keeps.

* `KeptBySteps.establishSession` — from what `Connect` guarantees to what the session has.
-/

namespace Ithax.Network.Client

open Ithax.Lib Ithax.Marshal

variable {cipher : Cipher} {I P E : Client → Prop} {α : Type}

theorem keeps_requireConnected : Keeps I requireConnected :=
  keeps_get.seq fun _ => Hoare.ite (fun _ => keeps_throw _) fun _ => keeps_pure _

theorem keeps_decodeCallRsp (packet : Packet) : Keeps I (decodeCallRsp packet) := by
  unfold decodeCallRsp
  split
  · exact keeps_pure _
  · exact (keeps_fromExcept _ _).seq fun _ => keeps_pure _

/-- What the steps of a session keep; the values that they send are tuples. -/
structure KeptBySteps (cipher : Cipher) (I : Client → Prop) : Prop where
  send : ∀ value : Value, value.isTuple = true → Keeps I (sendMarshal cipher value)
  receive : Keeps I (receiveMarshal cipher)
  handshake : ∀ {α : Type} (m : HandshakeM α), Keeps I (onHandshake m)
  reset : ∀ c, I c → I { c with handshake := .waitVersion }
  install : ∀ crypto, Keeps I (onLink (Link.setSessionCrypto crypto))

/-- What a program keeps of the link, for the client. -/
theorem keeps_onLink {J : Link → Prop} {m : LinkM α} (hm : Keeps J m) (hIn : ∀ c, I c → J c.link)
    (hOut : ∀ c link, I c → J link → I { c with link }) : Keeps I (onLink m) := by
  refine hoare_zoom fun c hc => ?_
  refine Hoare.weaken (hm.strengthen ?_) (fun _ link => hOut c link hc) fun link => hOut c link hc
  rintro l rfl
  exact hIn c hc

/-- A predicate that the link has no part in. -/
theorem keeps_onLink_of_outer (h : ∀ c link, I c → I { c with link }) (m : LinkM α) :
    Keeps I (onLink m) :=
  keeps_onLink (hoare_any m) (fun _ _ => trivial) fun c link hc _ => h c link hc

/-- A predicate that the handshake has no part in. -/
theorem keeps_onHandshake_of_outer (h : ∀ c handshake, I c → I { c with handshake })
    (m : HandshakeM α) : Keeps I (onHandshake m) := by
  refine hoare_zoom fun c hc => ?_
  intro state hState
  cases m state with
  | ok a state' => exact h c state' hc
  | error e state' => exact h c state' hc

theorem KeptBySteps.of_outer (hLink : ∀ c link, I c → I { c with link })
    (hHandshake : ∀ c handshake, I c → I { c with handshake }) : KeptBySteps cipher I where
  send _ _ := keeps_onLink_of_outer hLink _
  receive := keeps_onLink_of_outer hLink _
  handshake m := keeps_onHandshake_of_outer hHandshake m
  reset c hc := hHandshake c .waitVersion hc
  install _ := keeps_onLink_of_outer hLink _

namespace KeptBySteps

/-- What the steps keep, and the handshake is complete. -/
theorem authenticate (h : KeptBySteps cipher I) :
    Hoare I (authenticate cipher) (fun _ c => I c ∧ c.handshake = .session) I := by
  refine (h.send _ rfl).bind fun _ => ?_
  refine (h.handshake _).bind fun _ => ?_
  refine h.receive.bind fun passwordVersion => ?_
  refine (h.handshake _).bind fun _ => ?_
  refine h.receive.bind fun serverHandshake => ?_
  refine (h.handshake _).bind fun _ => ?_
  refine (h.send _ rfl).bind fun _ => ?_
  refine (h.handshake _).bind fun _ => ?_
  refine h.receive.bind fun ack => ?_
  refine (h.handshake _).bind fun _ => ?_
  -- the last check is what makes the handshake state known
  refine (hoare_get (Q := fun c s => I s ∧ c = s) fun _ hs => ⟨hs, rfl⟩).bind fun c => ?_
  refine Hoare.ite (fun _ => hoare_throw fun _ hs => hs.1) fun hComplete => ?_
  refine hoare_pure fun s hs => ⟨hs.1, ?_⟩
  rw [← hs.2]
  simpa [Handshake.isComplete] using hComplete

/-- `Connect` leads into what the steps keep, or it throws. -/
theorem negotiateCrypto (h : KeptBySteps cipher I)
    (hConnect : ∀ host, Hoare (fun c => P c ∧ c.host = host) (onLink (Link.connect host))
      (fun _ => I) E) :
    Hoare P (negotiateCrypto cipher) (fun _ => I) fun c => E c ∨ I c := by
  refine (hoare_get (Q := fun c s => P s ∧ s.host = c.host) fun _ hc => ⟨hc, rfl⟩).bind
    fun c => ?_
  refine ((hConnect c.host).weaken (fun _ _ hc => hc) fun _ hc => Or.inl hc).bind fun _ => ?_
  refine Hoare.weaken (E := I) ?_ (fun _ _ hc => hc) fun _ hc => Or.inr hc
  refine Keeps.seq (hoare_modify fun c hc => h.reset c hc) fun _ => ?_
  refine h.receive.seq fun version => ?_
  refine (h.handshake _).seq fun _ => ?_
  refine (h.send _ rfl).seq fun _ => ?_
  refine (h.send _ rfl).seq fun _ => ?_
  refine (h.handshake _).seq fun _ => ?_
  refine (h.send _ rfl).seq fun _ => ?_
  refine (h.handshake _).seq fun _ => ?_
  exact h.receive.seq fun okCc => h.handshake _

theorem establishSession (h : KeptBySteps cipher I)
    (hConnect : ∀ host, Hoare (fun c => P c ∧ c.host = host) (onLink (Link.connect host))
      (fun _ => I) E) :
    Hoare P (establishSession cipher) (fun _ => I) fun c => E c ∨ I c := by
  have hRest : Keeps I (onLink (Link.setSessionCrypto sessionCrypto) >>=
      fun _ => Client.authenticate cipher) :=
    (h.install _).seq fun _ => h.authenticate.weaken (fun _ _ hc => hc.1) fun _ hc => hc
  exact (h.negotiateCrypto hConnect).bind fun _ =>
    hRest.weaken (fun _ _ hc => hc) fun _ hc => Or.inr hc

/-- What `Connect` keeps too, an attempt keeps. -/
theorem keeps_establishSession (h : KeptBySteps cipher I)
    (hConnect : ∀ host, Keeps I (onLink (Link.connect host))) :
    Keeps I (Client.establishSession cipher) :=
  (h.establishSession fun host => (hConnect host).strengthen fun _ hc => hc.1).weaken
    (fun _ _ hc => hc) fun _ hc => hc.elim id id

end KeptBySteps

end Ithax.Network.Client

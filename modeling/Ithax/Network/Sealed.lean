import Ithax.Network.SessionSteps

/-!
# Application traffic is encrypted

The connection, the handshake and the session crypto are three objects that
`EstablishSession` moves one after the other and that exceptions can leave at any
point. `Guarded` is what holds of a client between its calls: a client that reports
connected has an open connection with a session crypto and a finished handshake, and
whatever left in clear text was a handshake message.
-/

namespace Ithax.Network

open Ithax.Lib Ithax.Marshal

/-- The bytes are the front of a frame with the value, in clear text or encrypted. -/
def Transmission.Genuine (cipher : Cipher) (t : Transmission) : Prop :=
  ∃ marshaled, encode t.value = .ok marshaled ∧
    t.written <+: frameBytes (match t.crypto with
      | none => marshaled
      | some crypto => cipher.encrypt crypto.key crypto.iv marshaled)

/-- What left in clear text was a handshake message: these are tuples, packets are
objects. -/
def Clean (cipher : Cipher) (wire : List Transmission) : Prop :=
  ∀ t ∈ wire, t.Genuine cipher ∧ (t.crypto = none → t.value.isTuple = true)

/-- One transmission more. -/
theorem Clean.snoc {cipher : Cipher} {wire : List Transmission} {t : Transmission}
    (h : Clean cipher wire)
    (hGenuine : t.Genuine cipher) (hTuple : t.crypto = none → t.value.isTuple = true) :
    Clean cipher (wire ++ [t]) := by
  intro t' hMem
  rcases List.mem_append.mp hMem with hOld | hNew
  · exact h t' hOld
  · rw [List.mem_singleton.mp hNew]
    exact ⟨hGenuine, hTuple⟩

/-- A clean wire, and `S` of whether the connection is open and has a session
crypto. -/
structure Phase (cipher : Cipher) (S : Bool → Bool → Prop) (l : Link) : Prop where
  clean : Clean cipher l.wire
  state : S l.connection.connected l.connection.crypto.isSome

-- ---------------------------------------------------------------------------
-- The connection
-- ---------------------------------------------------------------------------

namespace Link

section Keeps

variable {cipher : Cipher} {S : Bool → Bool → Prop}

/-- Which answers are left does not matter. -/
theorem keeps_draw {α : Type} {view : Outside → List α} {put : Outside → List α → Outside}
    {exhausted : α} : Keeps (Phase cipher S) (draw view put exhausted) := by
  intro l hl
  unfold draw
  rcases view l.network with - | ⟨answer, rest⟩
  · exact hl
  · exact ⟨hl.clean, hl.state⟩

/-- The check of the connection changes nothing. -/
theorem keeps_requireEstablished : Keeps (Phase cipher S) requireEstablished :=
  keeps_get.bind fun _ =>
    Hoare.ite (fun _ => keeps_throw _) fun _ => keeps_pure _

/-! ### Connecting -/

/-- The check of the host only asks the resolver. -/
theorem keeps_validateLoopbackHost (host : String) :
    Keeps (Phase cipher S) (validateLoopbackHost host) := by
  have hCheck : Keeps (Phase cipher S) (isLoopbackAddress host) := by
    refine Hoare.ite (fun _ => keeps_pure _) fun _ => ?_
    refine keeps_draw.bind fun entries => ?_
    cases entries with
    | none => exact keeps_pure _
    | some entries => exact keeps_pure _
  refine hCheck.bind fun loopback => ?_
  exact Hoare.ite (fun _ => keeps_throw _) fun _ => keeps_pure _

/-- The addresses are tried one after the other. -/
theorem keeps_openSocket : ∀ entries : List SockAddr,
    Keeps (Phase cipher S) (openSocket entries)
  | [] => keeps_pure _
  | entry :: entries => by
    refine keeps_draw.bind fun handle => ?_
    cases handle with
    | none => exact keeps_openSocket entries
    | some handle =>
      refine keeps_draw.bind fun connected => ?_
      exact Hoare.ite (fun _ => keeps_pure _) fun _ => keeps_openSocket entries

/-- `Connect` opens the connection or leaves it as it was. -/
theorem hoare_connect (host : String) :
    Hoare (Phase cipher S) (connect host)
      (fun _ => Phase cipher fun connected _ => connected = true) (Phase cipher S) := by
  refine (keeps_validateLoopbackHost host).bind fun _ => ?_
  refine keeps_get.bind fun _ => ?_
  refine Hoare.ite (fun _ => hoare_throw fun _ hl => hl) fun _ => ?_
  refine keeps_draw.bind fun entries => ?_
  cases entries with
  | none => exact hoare_throw fun _ hl => hl
  | some entries =>
    refine (keeps_openSocket entries).bind fun opened => ?_
    cases opened with
    | none => exact hoare_throw fun _ hl => hl
    | some opened => exact hoare_modify fun _ hl => ⟨hl.clean, rfl⟩

/-! ### Sending -/

/-- Running a session crypto leaves one installed. -/
theorem hoare_onCrypto {crypto : Option SessionCrypto} {payload : Bytes}
    {m : Option EvpFault → CryptoM Bytes} {Q : Bytes → Prop} (hNone : crypto = none → Q payload)
    (hSome : ∀ c fault out next, crypto = some c → m fault c = .ok out next → Q out) :
    Hoare (fun l => Phase cipher S l ∧ l.connection.crypto = crypto) (onCrypto payload m)
      (fun out l => Phase cipher S l ∧ Q out) (Phase cipher S) := by
  refine (hoare_get (Q := fun l l' => (Phase cipher S l' ∧ l'.connection.crypto = crypto) ∧
    l.connection.crypto = crypto) fun l hl => ⟨hl, hl.2⟩).bind fun l => ?_
  refine Hoare.assuming fun hCrypto => ?_
  rw [hCrypto]
  cases crypto with
  | none => exact hoare_pure fun _ hl => ⟨hl.1, hNone rfl⟩
  | some crypto =>
    have hFault : Hoare (fun l => Phase cipher S l ∧ l.connection.crypto = some crypto)
        nextFault (fun _ l => Phase cipher S l ∧ l.connection.crypto = some crypto)
        (Phase cipher S) := by
      intro l hl
      unfold nextFault draw
      rcases l.network.faults with - | ⟨answer, rest⟩
      · exact hl
      · exact ⟨⟨hl.1.clean, hl.1.state⟩, hl.2⟩
    refine hFault.bind fun fault => hoare_zoom fun l hl c hc => ?_
    obtain rfl : c = crypto := hc
    have hState : ∀ next : SessionCrypto, S l.connection.connected (some next).isSome := by
      have hPhase := hl.1.state
      rw [hl.2] at hPhase
      exact fun _ => hPhase
    rcases hRun : m fault c with ⟨out, next⟩ | ⟨e, next⟩
    · exact ⟨⟨hl.1.clean, hState next⟩, hSome c fault out next rfl hRun⟩
    · exact ⟨hl.1.clean, hState next⟩

/-- A payload is encrypted under the session crypto, or there is none. -/
theorem hoare_encrypt (crypto : Option SessionCrypto) (marshaled : Bytes) :
    Hoare (fun l => Phase cipher S l ∧ l.connection.crypto = crypto)
      (onCrypto marshaled fun fault => SessionCrypto.encrypt cipher fault marshaled)
      (fun payload l => Phase cipher S l ∧ payload = match crypto with
        | none => marshaled
        | some crypto => cipher.encrypt crypto.key crypto.iv marshaled) (Phase cipher S) := by
  refine hoare_onCrypto ?_ ?_
  · rintro rfl
    rfl
  · rintro c fault out next rfl hRun
    cases fault with
    | none => cases hRun; rfl
    | some fault => cases hRun

/-- What the loop wrote is the front of the frame. -/
theorem sendLoop_prefix : ∀ (sends : List Int) (frame : Bytes),
    (sendLoop sends frame).1 <+: frame
  | sends, [] => by
    have hDone : sendLoop sends [] = ([], true, sends) := by rw [sendLoop]
    exact hDone ▸ List.nil_prefix
  | [], _ :: _ => List.nil_prefix
  | written :: sends, b :: bytes => by
    rw [sendLoop]
    by_cases hFailed : written ≤ 0
    · rw [if_pos hFailed]
      exact List.nil_prefix
    · rw [if_neg hFailed]
      have hRest := sendLoop_prefix sends ((b :: bytes).drop written.toNat)
      have hSplit := List.take_append_drop written.toNat (b :: bytes)
      show (b :: bytes).take written.toNat ++ (sendLoop sends _).1 <+: b :: bytes
      conv_rhs => rw [← hSplit]
      exact (List.prefix_append_right_inj _).mpr hRest

/-- A handshake message may be sent at any time, any other value only in a phase
that has a session crypto. -/
theorem keeps_sendMarshal {value : Value}
    (hTuple : value.isTuple = true ∨ ∀ connected, ¬S connected false) :
    Keeps (Phase cipher S) (sendMarshal cipher value) := by
  refine keeps_requireEstablished.bind fun _ => ?_
  have hClear : ∀ l, Phase cipher S l → l.connection.crypto = none →
      value.isTuple = true := by
    intro l hl hNone
    refine hTuple.resolve_right fun hNever => hNever l.connection.connected ?_
    have hState := hl.state
    rw [hNone] at hState
    exact hState
  refine (hoare_get (Q := fun l l' =>
    (Phase cipher S l' ∧ l'.connection.crypto = l.connection.crypto) ∧
      (l.connection.crypto = none → value.isTuple = true))
    fun l hl => ⟨⟨hl, rfl⟩, hClear l hl⟩).bind fun l => Hoare.assuming fun hTuple => ?_
  generalize l.connection.crypto = crypto at hTuple ⊢
  refine (hoare_fromExcept fun _ hl => hl.1).bind fun marshaled =>
    Hoare.assuming fun hMarshaled => ?_
  refine (hoare_encrypt crypto marshaled).bind fun payload =>
    Hoare.assuming fun hPayload => ?_
  refine (hoare_fromExcept fun _ hl => hl).bind fun frame => Hoare.assuming fun hFrame => ?_
  obtain ⟨-, rfl⟩ := encodeFrame_eq_ok hFrame
  refine keeps_get.bind fun l => ?_
  have hWritten := sendLoop_prefix l.network.sends (frameBytes payload)
  rcases hLoop : sendLoop l.network.sends (frameBytes payload) with ⟨written, done, sends⟩
  rw [hLoop] at hWritten
  have hGenuine : Transmission.Genuine cipher ⟨value, crypto, written⟩ :=
    ⟨marshaled, hMarshaled, hPayload ▸ hWritten⟩
  refine (hoare_modify (Q := fun _ => Phase cipher S) fun l hl =>
    ⟨hl.clean.snoc hGenuine hTuple, hl.state⟩).bind fun _ => ?_
  exact Hoare.ite (fun _ => keeps_throw _) fun _ => keeps_pure _

/-! ### Receiving -/

/-- Reading a frame sends nothing. -/
theorem keeps_onDecoder {α : Type} (m : FrameM α) : Keeps (Phase cipher S) (onDecoder m) := by
  refine hoare_zoom fun l hl d _ => ?_
  rcases m d with ⟨a, d'⟩ | ⟨e, d'⟩
  · exact ⟨hl.clean, hl.state⟩
  · exact ⟨hl.clean, hl.state⟩

/-- What the peer has sent is taken. -/
theorem keeps_setReceives (receives : List Received) :
    Keeps (Phase cipher S) (setReceives receives) :=
  hoare_modify fun _ hl => ⟨hl.clean, hl.state⟩

/-- A frame is received. -/
theorem keeps_receiveFrame : ∀ receives : List Received,
    Keeps (Phase cipher S) (receiveFrame receives) := by
  intro receives
  induction receives with
  | nil =>
    unfold receiveFrame
    refine (keeps_onDecoder _).bind fun popped => ?_
    cases popped with
    | some payload => exact keeps_pure _
    | none => exact keeps_throw _
  | cons received rest ih =>
    unfold receiveFrame
    refine (keeps_onDecoder _).bind fun popped => ?_
    cases popped with
    | some payload => exact keeps_pure _
    | none =>
      rcases received with ⟨- | ⟨b, bytes⟩⟩ | - | -
      · exact (keeps_setReceives rest).bind fun _ => keeps_throw _
      · refine (keeps_setReceives rest).bind fun _ => ?_
        exact (keeps_onDecoder _).bind fun _ => ih
      · exact (keeps_setReceives rest).bind fun _ => keeps_throw _
      · exact (keeps_setReceives rest).bind fun _ => keeps_throw _

/-- Decrypting moves the vector, and sends nothing. -/
theorem keeps_decrypt (frame : Bytes) : Keeps (Phase cipher S)
    (onCrypto frame fun fault => SessionCrypto.decrypt cipher fault frame) := by
  intro l hl
  refine Hoare.weaken (hoare_onCrypto (Q := fun _ => True)
    (fun _ => trivial) fun _ _ _ _ _ _ => trivial) (fun _ _ h => h.1) (fun _ h => h) l ⟨hl, rfl⟩

/-- A value is received. -/
theorem keeps_receiveMarshal : Keeps (Phase cipher S) (receiveMarshal cipher) := by
  refine keeps_requireEstablished.bind fun _ => ?_
  refine keeps_get.bind fun l => ?_
  refine (keeps_receiveFrame _).bind fun frame => ?_
  refine (keeps_decrypt frame).bind fun payload => ?_
  exact keeps_fromExcept _ _

end Keeps

/-- From here on everything sent is encrypted. -/
theorem hoare_setSessionCrypto (crypto : SessionCrypto) :
    Hoare (Phase cipher fun connected _ => connected = true) (setSessionCrypto crypto)
      (fun _ => Phase cipher fun connected secured => connected = true ∧ secured = true)
      (Phase cipher fun connected _ => connected = true) :=
  hoare_modify fun _ hl => ⟨hl.clean, hl.state, rfl⟩

end Link

-- ---------------------------------------------------------------------------
-- The client
-- ---------------------------------------------------------------------------

/-- The connection is open and has a session crypto. -/
abbrev Secured (connected secured : Bool) : Prop := connected = true ∧ secured = true

namespace Client

/-- What the calls keep. -/
structure Guarded (cipher : Cipher) (c : Client) : Prop where
  clean : Clean cipher c.link.wire
  session : c.connected = true → c.link.connection.connected = true ∧
    c.handshake = .session ∧ c.link.connection.crypto.isSome = true

/-- A client that reports `connected`, with `H` of its handshake and `S` of its
connection. -/
structure In (cipher : Cipher) (connected : Bool) (H : HandshakeState → Prop)
    (S : Bool → Bool → Prop) (c : Client) : Prop where
  flag : c.connected = connected
  handshake : H c.handshake
  link : Phase cipher S c.link

section Steps

variable {cipher : Cipher} {b : Bool} {H : HandshakeState → Prop}
  {S S' : Bool → Bool → Prop}

/-- A client with a session. -/
theorem In.guarded {c : Client} (h : In cipher true (· = .session) Secured c) :
    Guarded cipher c :=
  ⟨h.link.clean, fun _ => ⟨h.link.state.1, h.handshake, h.link.state.2⟩⟩

/-- A client without a connection. -/
theorem In.guarded_of_disconnected {c : Client} (h : In cipher false H S c) :
    Guarded cipher c :=
  ⟨h.link.clean, fun hTrue => absurd (h.flag.symm.trans hTrue) (by decide)⟩

/-- A client that is not connected, seen from inside a call. -/
theorem Guarded.idle {c : Client} (h : Guarded cipher c) (hFlag : c.connected = false) :
    In cipher false (fun _ => True) (fun _ _ => True) c :=
  ⟨hFlag, trivial, h.clean, trivial⟩

/-- A connected client has its session. -/
theorem Guarded.live {c : Client} (h : Guarded cipher c) (hFlag : c.connected = true) :
    In cipher true (· = .session) Secured c :=
  ⟨hFlag, (h.session hFlag).2.1, h.clean, (h.session hFlag).1, (h.session hFlag).2.2⟩

/-- A link program moves the client as it moves the link. -/
theorem hoare_onLink {α : Type} {m : LinkM α}
    (h : Hoare (Phase cipher S) m (fun _ => Phase cipher S') (Phase cipher S)) :
    Hoare (In cipher b H S) (onLink m) (fun _ => In cipher b H S')
      (In cipher b H S) := by
  refine hoare_zoom fun c hc l hl => ?_
  obtain rfl : l = c.link := hl
  have hRun := h c.link hc.link
  rcases hm : m c.link with ⟨a, l⟩ | ⟨e, l⟩
  · rw [hm] at hRun
    exact ⟨hc.flag, hc.handshake, hRun⟩
  · rw [hm] at hRun
    exact ⟨hc.flag, hc.handshake, hRun⟩

/-- The handshake state is not the connection's. -/
theorem keeps_onHandshake {α : Type} (m : HandshakeM α) :
    Keeps (In cipher b (fun _ => True) S) (onHandshake m) := by
  refine hoare_zoom fun c hc s _ => ?_
  rcases m s with ⟨a, s'⟩ | ⟨e, s'⟩
  · exact ⟨hc.flag, trivial, hc.link⟩
  · exact ⟨hc.flag, trivial, hc.link⟩

/-- A value is received. -/
theorem keeps_receiveMarshal : Keeps (In cipher b H S) (receiveMarshal cipher) :=
  hoare_onLink Link.keeps_receiveMarshal

/-- A value is sent: a tuple, or encrypted. -/
theorem keeps_sendMarshal {value : Value}
    (hTuple : value.isTuple = true ∨ ∀ connected, ¬S connected false) :
    Keeps (In cipher b H S) (sendMarshal cipher value) :=
  hoare_onLink (Link.keeps_sendMarshal hTuple)

/-! ### Establishing a session -/

/-- The connection is open. -/
abbrev Open (connected _secured : Bool) : Prop := connected = true

/-- Less is said of the handshake and of the connection. -/
theorem In.loosen {c : Client} (h : In cipher b H S c) :
    In cipher b (fun _ => True) (fun _ _ => True) c :=
  ⟨h.flag, trivial, h.link.clean, trivial⟩

/-- The steps of a session, where a session crypto may be installed. -/
theorem keptBySteps_in (hS : ∀ connected secured, S connected secured → S connected true) :
    KeptBySteps cipher (In cipher b (fun _ => True) S) where
  send _ hTuple := keeps_sendMarshal (Or.inl hTuple)
  receive := keeps_receiveMarshal
  handshake m := keeps_onHandshake m
  reset _ hc := ⟨hc.flag, trivial, hc.link⟩
  install _ := hoare_onLink (hoare_modify fun _ hl => ⟨hl.clean, hS _ _ hl.state⟩)

/-- After its `Connect`, every step keeps the connection open. -/
theorem hoare_negotiateCrypto :
    Hoare (In cipher b (fun _ => True) fun _ _ => True) (negotiateCrypto cipher)
      (fun _ => In cipher b (fun _ => True) Open)
      (In cipher b (fun _ => True) fun _ _ => True) := by
  have hConnect : ∀ host, Hoare
      (fun c => In cipher b (fun _ => True) (fun _ _ => True) c ∧ c.host = host)
      (onLink (Link.connect host)) (fun _ => In cipher b (fun _ => True) Open)
      (In cipher b (fun _ => True) fun _ _ => True) := fun host =>
    (hoare_onLink (Link.hoare_connect host)).strengthen fun _ hc => hc.1
  have hSteps : KeptBySteps cipher (In cipher b (fun _ => True) Open) :=
    keptBySteps_in fun _ _ h => h
  exact (hSteps.negotiateCrypto hConnect).weaken (fun _ _ h => h) fun _ h => h.elim id In.loosen

/-- After the session crypto is installed everything is encrypted, and a return means a
session. -/
theorem hoare_authenticate :
    Hoare (In cipher b (fun _ => True) Secured) (authenticate cipher)
      (fun _ => In cipher b (· = .session) Secured)
      (In cipher b (fun _ => True) Secured) := by
  have hSteps : KeptBySteps cipher (In cipher b (fun _ => True) Secured) :=
    keptBySteps_in fun _ _ h => ⟨h.1, rfl⟩
  exact hSteps.authenticate.weaken (fun _ _ h => ⟨h.1.flag, h.2, h.1.link⟩) fun _ h => h

/-- `EstablishSession`: clear text only before the session crypto, and only tuples. -/
theorem hoare_establishSession :
    Hoare (In cipher b (fun _ => True) fun _ _ => True) (establishSession cipher)
      (fun _ => In cipher b (· = .session) Secured)
      (In cipher b (fun _ => True) fun _ _ => True) := by
  refine hoare_negotiateCrypto.bind fun _ => ?_
  refine Hoare.bind ((hoare_onLink (Link.hoare_setSessionCrypto sessionCrypto)).weaken
    (fun _ _ h => h) fun _ h => h.loosen) fun _ => ?_
  exact hoare_authenticate.weaken (fun _ _ h => h) fun _ h => h.loosen

/-- However many rounds are run, the loop ends in a session or disconnected. -/
theorem hoare_connectLoop (now : Int) : ∀ (rounds : Nat) (attempt : UInt32),
    Hoare (In cipher false (fun _ => True) fun _ _ => True)
      (connectLoop cipher now rounds attempt) (fun _ => Guarded cipher) (Guarded cipher)
  | 0, _ => hoare_pure fun _ hc => hc.guarded_of_disconnected
  | rounds + 1, attempt => by
    intro c hc
    have hSession := hoare_establishSession c hc
    simp only [connectLoop]
    rcases hRun : establishSession cipher c with ⟨done, c'⟩ | ⟨e, c'⟩
    · rw [hRun] at hSession
      exact In.guarded ⟨rfl, hSession.handshake, hSession.link⟩
    · rw [hRun] at hSession
      have hOut : In cipher false (fun _ => True) (fun _ _ => True)
          { c' with link := c'.link.disconnect } :=
        ⟨hSession.flag, trivial, hSession.link.clean, trivial⟩
      by_cases hMore : attempt + 1 > c'.reconnectAttempts
      · simp only [hMore, if_true]
        exact hOut.guarded_of_disconnected
      · simp only [hMore, if_false]
        exact hoare_connectLoop now rounds (attempt + 1) _ hOut

/-- `Connect`, however its attempts end. -/
theorem keeps_connect (now : Int) (rounds : Nat) :
    Keeps (Guarded cipher) (connect cipher now rounds) := by
  refine (hoare_get (Q := fun c c' => Guarded cipher c' ∧ c = c') fun _ hc =>
    ⟨hc, rfl⟩).bind fun c => ?_
  refine Hoare.ite (fun _ => hoare_throw fun _ hc => hc.1) fun hFlag => ?_
  refine (hoare_connectLoop now rounds 0).strengthen fun c' hc => hc.1.idle ?_
  rw [← hc.2]
  exact eq_false_of_ne_true hFlag

/-! ### The other calls -/

/-- The calls that send or receive start with this check. -/
theorem hoare_requireConnected :
    Hoare (Guarded cipher) requireConnected
      (fun _ => In cipher true (· = .session) Secured) (Guarded cipher) := by
  refine (hoare_get (Q := fun c c' => Guarded cipher c' ∧ c = c') fun _ hc =>
    ⟨hc, rfl⟩).bind fun c => ?_
  refine Hoare.ite (fun _ => hoare_throw fun _ hc => hc.1) fun hFlag => ?_
  refine hoare_pure fun c' hc => hc.1.live ?_
  rw [← hc.2]
  exact eq_true_of_ne_false hFlag

/-- A session stays one, and a program that keeps it keeps the client guarded. -/
theorem Guarded.of_session {α : Type} {m : ClientM α}
    (h : Keeps (In cipher true (· = .session) Secured) m) :
    Hoare (In cipher true (· = .session) Secured) m (fun _ => Guarded cipher)
      (Guarded cipher) :=
  h.weaken (fun _ _ hc => hc.guarded) fun _ hc => hc.guarded

/-- A packet is sent, encrypted. -/
theorem keeps_sendPacket (packet : Packet) :
    Keeps (In cipher true (· = .session) Secured) (sendPacket cipher packet) :=
  keeps_sendMarshal (Or.inr fun _ h => absurd h.2 (by decide))

/-- `SendCall`. -/
theorem keeps_sendCall (service method : Bytes) (args : List Value) (kwargs : Option Value) :
    Keeps (Guarded cipher) (sendCall cipher service method args kwargs) := by
  refine hoare_requireConnected.bind fun _ => ?_
  refine Guarded.of_session ?_
  exact (keeps_fromExcept _ _).bind fun body => keeps_sendPacket _

/-- `SendPing`. -/
theorem keeps_sendPing : Keeps (Guarded cipher) (sendPing cipher) :=
  hoare_requireConnected.bind fun _ => Guarded.of_session (keeps_sendPacket _)

/-- `SendNotification`. -/
theorem keeps_sendNotification (type : Bytes) (args : List Value) :
    Keeps (Guarded cipher) (sendNotification cipher type args) :=
  hoare_requireConnected.bind fun _ => Guarded.of_session (keeps_sendPacket _)

/-- `PumpOnce`. -/
theorem keeps_pumpOnce (now : Int) : Keeps (Guarded cipher) (pumpOnce cipher now) := by
  refine keeps_get.bind fun c => ?_
  refine Hoare.ite (fun _ => ?_) fun _ => keeps_pure _
  refine Hoare.ite (fun _ => ?_) fun _ => keeps_pure _
  exact keeps_sendPing.bind fun _ => hoare_modify fun _ hc => ⟨hc.clean, hc.session⟩

/-- The handler of call responses is told, and nothing sent. -/
theorem keeps_handleCallRsp (packet : Packet) :
    Keeps (In cipher true (· = .session) Secured) (handleCallRsp packet) := by
  refine keeps_get.bind fun c => ?_
  refine Hoare.ite (fun _ => ?_) fun _ => keeps_pure _
  exact (keeps_decodeCallRsp packet).bind fun result =>
    hoare_modify fun _ hc => ⟨hc.flag, hc.handshake, hc.link⟩

/-- `Receive`, with the answer to a ping. -/
theorem keeps_receive : Keeps (Guarded cipher) (receive cipher) := by
  refine hoare_requireConnected.bind fun _ => ?_
  refine Guarded.of_session ?_
  refine keeps_receiveMarshal.bind fun value => ?_
  have hHandle : Keeps (In cipher true (· = .session) Secured) (handleIncoming cipher value) := by
    refine keeps_get.bind fun c => ?_
    refine (keeps_fromExcept _ _).bind fun packet => ?_
    split
    · exact keeps_sendPacket _
    · exact keeps_handleCallRsp packet
    · exact keeps_pure _
  exact hHandle.bind fun _ => keeps_pure _

/-- Every call keeps what the calls keep. -/
theorem Guarded.call {c : Client} (h : Guarded cipher c) (call : ClientCall) :
    Guarded cipher (c.call cipher call) := by
  cases call with
  | connect now rounds => exact (keeps_connect now rounds).finalState h
  | disconnect => exact ⟨h.clean, fun hTrue => (Bool.false_ne_true hTrue).elim⟩
  | setHeartbeatInterval intervalMs => exact ⟨h.clean, h.session⟩
  | setReconnectPolicy maxAttempts delayMs => exact ⟨h.clean, h.session⟩
  | setCallRspHandler installed => exact ⟨h.clean, h.session⟩
  | sendCall service method args kwargs =>
    exact (keeps_sendCall service method args kwargs).finalState h
  | sendPing => exact keeps_sendPing.finalState h
  | sendNotification type args => exact (keeps_sendNotification type args).finalState h
  | receive => exact keeps_receive.finalState h
  | pumpOnce now => exact (keeps_pumpOnce now).finalState h

/-- So does every sequence of calls. -/
theorem Guarded.runCalls : ∀ (calls : List ClientCall) {c : Client}, Guarded cipher c →
    Guarded cipher (runCalls cipher c calls)
  | [], _, h => h
  | call :: calls, _, h => Guarded.runCalls calls (h.call call)

end Steps

/-- In every reachable state a client that reports connected has an open connection, a
finished handshake and a session crypto, and every packet on the wire is the front of
a frame of its encrypted encoding. -/
theorem runCalls_sealed (cipher : Cipher) (host : String) (outside : Outside)
    (calls : List ClientCall) :
    ((runCalls cipher (create host outside) calls).isConnected = true →
      (runCalls cipher (create host outside) calls).link.connection.connected = true ∧
      (runCalls cipher (create host outside) calls).handshake = .session ∧
      (runCalls cipher (create host outside) calls).link.connection.crypto.isSome = true) ∧
    ∀ t ∈ (runCalls cipher (create host outside) calls).link.wire, ∀ packet : Packet,
      t.value = packet.encode →
      ∃ crypto marshaled, t.crypto = some crypto ∧ Marshal.encode t.value = .ok marshaled ∧
        t.written <+: frameBytes (cipher.encrypt crypto.key crypto.iv marshaled) := by
  have hCreate : Guarded cipher (create host outside) :=
    ⟨fun _ hMem => absurd hMem List.not_mem_nil,
      fun hTrue => (Bool.false_ne_true hTrue).elim⟩
  have hRun := Guarded.runCalls calls hCreate
  refine ⟨hRun.session, fun t hMem packet hPacket => ?_⟩
  obtain ⟨⟨marshaled, hEncode, hWritten⟩, hTuple⟩ := hRun.clean t hMem
  cases hCrypto : t.crypto with
  | none =>
    have hClear := hTuple hCrypto
    rw [hPacket] at hClear
    cases hClear
  | some crypto =>
    rw [hCrypto] at hWritten
    exact ⟨crypto, marshaled, rfl, hEncode, hWritten⟩

end Client

end Ithax.Network

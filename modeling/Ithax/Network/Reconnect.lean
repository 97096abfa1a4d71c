import Ithax.Lib.Retry
import Ithax.Network.LinkCalls
import Ithax.Network.SessionSteps

/-!
# Reconnecting

`Client::Connect` tries to establish a session until it has one or until its count of failed
attempts is past the limit of the policy. The count has 32 bits, so it is never past the
largest limit.

* `establishSession_generation` — an attempt has a new generation, or its connect failed;
* `connectLoop_eq`              — what the loop answers is what its last attempt did;
* `connect_bounded_iff`         — the clients whose attempts are bounded.
-/

namespace Ithax.Network.Client

open Ithax.Lib Ithax.Marshal

-- ---------------------------------------------------------------------------
-- One attempt
-- ---------------------------------------------------------------------------

/-- The `Connect` of the connection throws. -/
def ConnectFails (c : Client) : Prop := ∃ e link, Link.connect c.host c.link = .error e link

/-- The session is not established. -/
def attemptFails (cipher : Cipher) (c : Client) : Bool :=
  match establishSession cipher c with
  | .ok _ _ => false
  | .error _ _ => true

/-- The client after a failed attempt: its connection is disconnected. -/
def afterFailure (cipher : Cipher) (c : Client) : Client :=
  let c := finalState (establishSession cipher c)
  { c with link := c.link.disconnect }

section Attempt

variable {cipher : Cipher} {c : Client}

/-- An attempt that succeeds. -/
theorem attemptFails_of_ok {c' : Client} (h : establishSession cipher c = .ok () c') :
    attemptFails cipher c = false := by
  simp [attemptFails, h]

/-- An attempt that throws. -/
theorem attemptFails_of_error {e : NetworkError} {c' : Client}
    (h : establishSession cipher c = .error e c') : attemptFails cipher c = true := by
  simp [attemptFails, h]

/-- What leaves the generation of the link alone leaves that of the client alone. -/
theorem keeps_generation_onLink {α : Type} {m : LinkM α} {generation : UInt64}
    (h : Keeps (fun l : Link => l.connection.generation = generation) m) :
    Keeps (fun c : Client => c.generation = generation) (onLink m) :=
  keeps_onLink h (fun _ hc => hc) fun _ _ _ hl => hl

/-- No step but the connect has to do with the generation. -/
theorem keptBySteps_generation (generation : UInt64) :
    KeptBySteps cipher fun c => c.generation = generation where
  send value _ := by
    refine keeps_generation_onLink ?_
    refine keeps_of_relation (Link.hoare_sendMarshal_wrote cipher value) fun l s hl hWrote => ?_
    exact hWrote.generation.trans hl
  receive := by
    refine keeps_generation_onLink ?_
    refine Link.keeps_receiveMarshal_of_took fun l popped s hl hTook => ?_
    exact hTook.generation.trans hl
  handshake m := keeps_onHandshake_of_outer (fun _ _ hc => hc) m
  reset _ hc := hc
  install _ := keeps_generation_onLink (hoare_modify fun _ hl => hl)

/-- An attempt begins a new generation, or its `Connect` throws and the old one stays. -/
theorem establishSession_generation (cipher : Cipher) (c : Client) :
    Hoare (fun s => s = c) (establishSession cipher)
      (fun _ s => s.generation = c.generation + 1)
      fun s => ConnectFails c ∧ s.generation = c.generation ∨
        s.generation = c.generation + 1 := by
  refine (keptBySteps_generation (c.generation + 1)).establishSession fun host => ?_
  rintro s ⟨rfl, rfl⟩
  have hRun := Link.hoare_connect_closed s.host s.link.connection s.link rfl
  unfold onLink
  cases hConnect : Link.connect s.host s.link with
  | ok _ link =>
    rw [hConnect] at hRun
    rw [zoom_of_ok hConnect]
    exact hRun.1
  | error e link =>
    rw [hConnect] at hRun
    rw [zoom_of_error hConnect]
    exact ⟨⟨e, link, hConnect⟩, congrArg Connection.generation hRun⟩

/-- An attempt fails before it connects, or has counted up. -/
theorem generation_afterFailure (cipher : Cipher) (c : Client) :
    ConnectFails c ∧ (afterFailure cipher c).generation = c.generation ∨
      (afterFailure cipher c).generation = c.generation + 1 := by
  have hRun := establishSession_generation cipher c c rfl
  unfold afterFailure
  cases hSession : establishSession cipher c with
  | ok _ s =>
    rw [hSession] at hRun
    exact .inr hRun
  | error _ s =>
    rw [hSession] at hRun
    exact hRun

/-- What an attempt leaves alone. -/
structure Settings (c s : Client) : Prop where
  host : s.host = c.host
  connected : s.connected = c.connected
  reconnectAttempts : s.reconnectAttempts = c.reconnectAttempts

/-- An attempt does not touch the policy. -/
theorem keeps_settings_establishSession (cipher : Cipher) (c : Client) :
    Keeps (Settings c) (establishSession cipher) :=
  have hLink : ∀ s link, Settings c s → Settings c { s with link } := fun _ _ h => ⟨h.1, h.2, h.3⟩
  (KeptBySteps.of_outer hLink fun _ _ h => ⟨h.1, h.2, h.3⟩).keeps_establishSession
    fun _ => keeps_onLink_of_outer hLink _

/-- Nor does what follows its failure. -/
theorem settings_afterFailure (cipher : Cipher) (c : Client) :
    Settings c (afterFailure cipher c) := by
  have hSession := (keeps_settings_establishSession cipher c).finalState ⟨rfl, rfl, rfl⟩
  exact ⟨hSession.host, hSession.connected, hSession.reconnectAttempts⟩

end Attempt

-- ---------------------------------------------------------------------------
-- The loop
-- ---------------------------------------------------------------------------

/-- The loop of `Connect` under a limit; `++attempt` wraps. -/
def reconnecting (cipher : Cipher) (maxAttempts : UInt32) : Retry Client where
  fails := attemptFails cipher
  after := afterFailure cipher
  stops k := UInt32.ofNat k + 1 > maxAttempts

/-- The clients that the attempts of a call of `Connect` find, in some rounds of its loop. -/
def connectAttempts (cipher : Cipher) (c : Client) (rounds : Nat) : List Client :=
  (reconnecting cipher c.reconnectAttempts).attempts rounds 0 c

section Loop

variable {cipher : Cipher} {c : Client} {maxAttempts : UInt32} {now : Int} {rounds k : Nat}

/-- Nor do many attempts. -/
theorem settings_iterate (cipher : Cipher) (c : Client) (k : Nat) :
    Settings c ((afterFailure cipher)^[k] c) := by
  induction k with
  | zero => exact ⟨rfl, rfl, rfl⟩
  | succ k ih =>
    have hNext := settings_afterFailure cipher ((afterFailure cipher)^[k] c)
    rw [Function.iterate_succ_apply']
    exact ⟨hNext.host.trans ih.host, hNext.connected.trans ih.connected,
      hNext.reconnectAttempts.trans ih.reconnectAttempts⟩

/-- What the loop answers after its last attempt, the one of number `k`. -/
def connectAnswer (cipher : Cipher) (now : Int) (stops : Bool) (last : Client) :
    EStateM.Result NetworkError Client (Option Unit) :=
  match establishSession cipher last with
  | .ok _ c => .ok (some ()) { c with connected := true, lastHeartbeat := now }
  | .error _ _ =>
    if stops then .error (.reconnect "connection attempts exhausted") (afterFailure cipher last)
    else .ok none (afterFailure cipher last)

/-- The loop ends with the first attempt that succeeds. -/
theorem connectLoop_of_ok {attempt : UInt32} {s : Client}
    (h : establishSession cipher c = .ok () s) :
    connectLoop cipher now (rounds + 1) attempt c =
      .ok (some ()) { s with connected := true, lastHeartbeat := now } := by
  simp only [connectLoop, h]

/-- After a failure it gives up or goes on. -/
theorem connectLoop_of_error {attempt : UInt32} {e : NetworkError} {s : Client}
    (h : establishSession cipher c = .error e s) :
    connectLoop cipher now (rounds + 1) attempt c =
      if attempt + 1 > c.reconnectAttempts then
        .error (.reconnect "connection attempts exhausted") (afterFailure cipher c)
      else connectLoop cipher now rounds (attempt + 1) (afterFailure cipher c) := by
  have hAfter : { s with link := s.link.disconnect } = afterFailure cipher c := by
    unfold afterFailure
    rw [h]
    rfl
  have hLimit : s.reconnectAttempts = c.reconnectAttempts := by
    have hSettings := (settings_afterFailure cipher c).reconnectAttempts
    rwa [← hAfter] at hSettings
  simp only [connectLoop, h]
  by_cases hStops : attempt + 1 > c.reconnectAttempts
  · rw [if_pos hStops, if_pos (hLimit ▸ hStops), hAfter]
  · rw [if_neg hStops, if_neg (hLimit ▸ hStops), hAfter]

/-- One round of the loop. -/
theorem connectLoop_succ (hPolicy : c.reconnectAttempts = maxAttempts) :
    connectLoop cipher now (rounds + 1) (UInt32.ofNat k) c =
      if (reconnecting cipher maxAttempts).goesOn k c then
        connectLoop cipher now rounds (UInt32.ofNat (k + 1)) (afterFailure cipher c)
      else connectAnswer cipher now ((reconnecting cipher maxAttempts).stops k) c := by
  have hCount : UInt32.ofNat k + 1 = UInt32.ofNat (k + 1) := by
    rw [UInt32.ofNat_add]
    rfl
  unfold Retry.goesOn connectAnswer reconnecting
  cases hSession : establishSession cipher c with
  | ok _ s =>
    rw [connectLoop_of_ok hSession]
    simp [attemptFails_of_ok hSession]
  | error e s =>
    rw [connectLoop_of_error hSession, hPolicy]
    simp only [attemptFails_of_error hSession, Bool.true_and]
    by_cases hStops : UInt32.ofNat k + 1 > maxAttempts
    · simp [hStops]
    · simp only [hStops, decide_false, Bool.not_false, if_true, if_false]
      rw [hCount]

/-- The loop ends with this attempt. -/
theorem connectLoop_of_ends (hPolicy : c.reconnectAttempts = maxAttempts)
    (hEnds : (reconnecting cipher maxAttempts).goesOn k c = false) :
    connectLoop cipher now (rounds + 1) (UInt32.ofNat k) c =
      connectAnswer cipher now
        ((reconnecting cipher maxAttempts).stops
          (k + ((reconnecting cipher maxAttempts).attempts (rounds + 1) k c).length - 1))
        ((afterFailure cipher)^[
          ((reconnecting cipher maxAttempts).attempts (rounds + 1) k c).length - 1] c) := by
  rw [connectLoop_succ hPolicy, if_neg (by simp [hEnds]), Retry.attempts_succ_of_ends hEnds,
    List.length_singleton, Nat.add_sub_cancel]
  rfl

/-- By induction on the rounds: what the loop answers is what its last attempt did. -/
theorem connectLoop_eq (hPolicy : c.reconnectAttempts = maxAttempts) :
    connectLoop cipher now (rounds + 1) (UInt32.ofNat k) c =
      connectAnswer cipher now
        ((reconnecting cipher maxAttempts).stops
          (k + ((reconnecting cipher maxAttempts).attempts (rounds + 1) k c).length - 1))
        ((afterFailure cipher)^[
          ((reconnecting cipher maxAttempts).attempts (rounds + 1) k c).length - 1] c) := by
  induction rounds generalizing k c with
  | zero =>
    by_cases hGoes : (reconnecting cipher maxAttempts).goesOn k c = true
    · have hEnds : attemptFails cipher c = true ∧
          (reconnecting cipher maxAttempts).stops k = false := by
        rw [Retry.goesOn, Bool.and_eq_true, Bool.not_eq_true'] at hGoes
        exact hGoes
      have hFirst : (afterFailure cipher)^[1 - 1] c = c := rfl
      rw [connectLoop_succ hPolicy, if_pos hGoes, Retry.attempts_succ_of_goesOn hGoes,
        Retry.attempts_zero,
        List.length_singleton, Nat.add_sub_cancel, hEnds.2, hFirst]
      unfold connectAnswer
      cases hSession : establishSession cipher c with
      | ok _ s => simp [attemptFails_of_ok hSession] at hEnds
      | error e s => rfl
    · exact connectLoop_of_ends hPolicy (by simpa using hGoes)
  | succ rounds ih =>
    have hNext := (settings_afterFailure cipher c).reconnectAttempts.trans hPolicy
    by_cases hGoes : (reconnecting cipher maxAttempts).goesOn k c = true
    · have hMore : 0 < ((reconnecting cipher maxAttempts).attempts (rounds + 1) (k + 1)
          (afterFailure cipher c)).length := by simp [Retry.attempts]
      have hAfter : (reconnecting cipher maxAttempts).after c = afterFailure cipher c := rfl
      rw [connectLoop_succ hPolicy, if_pos hGoes, ih hNext, Retry.attempts_succ_of_goesOn hGoes, List.length_cons, hAfter]
      generalize ((reconnecting cipher maxAttempts).attempts (rounds + 1) (k + 1)
        (afterFailure cipher c)).length = made at hMore
      obtain ⟨made, rfl⟩ := Nat.exists_eq_add_one_of_ne_zero (Nat.ne_of_gt hMore)
      have hNumber : k + 1 + (made + 1) - 1 = k + (made + 1 + 1) - 1 := by omega
      rw [hNumber, Nat.add_sub_cancel, Nat.add_sub_cancel, Function.iterate_succ_apply]
    · exact connectLoop_of_ends hPolicy (by simpa using hGoes)

/-- A client that is not connected enters the loop. -/
theorem connect_of_idle (h : c.connected = false) :
    connect cipher now rounds c = connectLoop cipher now rounds 0 c := by
  unfold connect
  rw [bind_of_ok (get_run c), if_neg (by simp [h])]

end Loop

-- ---------------------------------------------------------------------------
-- Generations
-- ---------------------------------------------------------------------------

section Generations

variable {cipher : Cipher} {c : Client}

/-- By induction on the attempts: each adds one to the generation or leaves it. -/
theorem generation_iterate (cipher : Cipher) (c : Client) (k : Nat) :
    ∃ sessions ≤ k,
      ((afterFailure cipher)^[k] c).generation = c.generation + UInt64.ofNat sessions := by
  induction k with
  | zero => exact ⟨0, le_rfl, (UInt64.add_zero _).symm⟩
  | succ k ih =>
    obtain ⟨sessions, hCount, hSame⟩ := ih
    rw [Function.iterate_succ_apply']
    obtain ⟨-, hOld⟩ | hNew := generation_afterFailure cipher ((afterFailure cipher)^[k] c)
    · exact ⟨sessions, by omega, hOld.trans hSame⟩
    · refine ⟨sessions + 1, by omega, ?_⟩
      rw [hNew, hSame, UInt64.ofNat_add, UInt64.add_assoc]
      rfl

/-- Fewer than `2 ^ 64` further sessions do not come back to a generation. -/
theorem generation_ne {g : UInt64} {sessions : Nat} (h : sessions + 1 < 2 ^ 64) :
    g + UInt64.ofNat sessions + 1 ≠ g := by
  intro hSame
  have hNat := congrArg UInt64.toNat hSame
  have hSize := g.toNat_lt
  rw [UInt64.toNat_add, UInt64.toNat_add, UInt64.toNat_ofNat', UInt64.toNat_one] at hNat
  omega

/-- The generation that an attempt begins is none that it or an attempt before it found. -/
theorem generation_fresh (cipher : Cipher) (c : Client) {i k : Nat} (hOrder : i ≤ k) (hCount : k < 2 ^ 64 - 1) :
    ((afterFailure cipher)^[k] c).generation + 1 ≠ ((afterFailure cipher)^[i] c).generation := by
  obtain ⟨rest, rfl⟩ := Nat.exists_eq_add_of_le hOrder
  obtain ⟨sessions, hSessions, hSame⟩ :=
    generation_iterate cipher ((afterFailure cipher)^[i] c) rest
  rw [Nat.add_comm i rest, Function.iterate_add_apply, hSame]
  exact generation_ne (by omega)

end Generations

-- ---------------------------------------------------------------------------
-- Bounded reconnecting
-- ---------------------------------------------------------------------------

/-- What is asked of a call of `Connect`: a bounded number of attempts, each a failed connect
or a generation that none of them found, and the end if none of them succeeds. -/
structure Bounded (cipher : Cipher) (c : Client) : Prop where
  attempts : ∀ rounds, (connectAttempts cipher c rounds).length ≤ c.reconnectAttempts.toNat + 1
  fresh : ∀ rounds before a later, connectAttempts cipher c rounds = before ++ a :: later →
    ConnectFails a ∧ (finalState (establishSession cipher a)).generation = a.generation ∨
      ∀ b ∈ before ++ [a],
        (finalState (establishSession cipher a)).generation ≠ b.generation
  exhausted : ∀ now rounds, c.reconnectAttempts.toNat < rounds →
    (∀ a ∈ connectAttempts cipher c rounds, attemptFails cipher a = true) →
    ∃ s, connect cipher now rounds c = .error (.reconnect "connection attempts exhausted") s ∧
      s.connected = false ∧ s.link.connection.connected = false ∧
      s.link.connection.crypto = none

section Bounded

variable {cipher : Cipher} {c : Client} {maxAttempts : UInt32}

/-- The largest limit of a policy. -/
def UNREACHABLE_LIMIT : UInt32 := 0xFFFFFFFF

/-- Where the count stops: after the attempt of the number of the limit, if it can be passed. -/
theorem stops_eq (cipher : Cipher) (hLimit : maxAttempts ≠ UNREACHABLE_LIMIT) {k : Nat}
    (hCount : k ≤ maxAttempts.toNat) :
    (reconnecting cipher maxAttempts).stops k = decide (k = maxAttempts.toNat) := by
  have hBelow : maxAttempts.toNat < 2 ^ 32 - 1 := by
    have hSize := maxAttempts.toNat_lt
    have hOther : maxAttempts.toNat ≠ 2 ^ 32 - 1 := fun hSame =>
      hLimit (UInt32.toNat_inj.mp hSame)
    omega
  have hNext : (UInt32.ofNat k + 1).toNat = k + 1 := by
    simp
    omega
  have hPast : UInt32.ofNat k + 1 > maxAttempts ↔ k = maxAttempts.toNat := by
    rw [gt_iff_lt, UInt32.lt_iff_toNat_lt, hNext]
    omega
  exact decide_eq_decide.mpr hPast

/-- Against the largest limit the loop never gives up. -/
theorem stops_unreachable (k : Nat) :
    (reconnecting cipher UNREACHABLE_LIMIT).stops k = false := by
  have hSize := (UInt32.ofNat k + 1).toNat_lt
  have hNot : ¬UInt32.ofNat k + 1 > UNREACHABLE_LIMIT := by
    rw [gt_iff_lt, UInt32.lt_iff_toNat_lt]
    show ¬2 ^ 32 - 1 < _
    omega
  exact decide_eq_false hNot

/-- Within the first `2 ^ 32` attempts the loop ends. -/
def Reachable (cipher : Cipher) (c : Client) : Prop :=
  c.reconnectAttempts ≠ UNREACHABLE_LIMIT ∨
    ∃ k < 2 ^ 32, attemptFails cipher ((afterFailure cipher)^[k] c) = false

/-- There is at most one attempt more than the limit. -/
theorem length_connectAttempts_le (h : Reachable cipher c) (rounds : Nat) :
    (connectAttempts cipher c rounds).length ≤ c.reconnectAttempts.toNat + 1 := by
  by_cases hLimit : c.reconnectAttempts = UNREACHABLE_LIMIT
  · obtain hOther | ⟨k, hCount, hSucceeds⟩ := h
    · exact absurd hLimit hOther
    · have hEnds : (reconnecting cipher c.reconnectAttempts).goesOn (0 + k)
          ((reconnecting cipher c.reconnectAttempts).after^[k] c) = false := by
        show (attemptFails cipher ((afterFailure cipher)^[k] c) && _) = false
        rw [hSucceeds, Bool.false_and]
      have hLength := Retry.length_attempts_le rounds hEnds
      have hMax : c.reconnectAttempts.toNat = 2 ^ 32 - 1 := congrArg UInt32.toNat hLimit
      unfold connectAttempts
      omega
  · have hStops := stops_eq cipher hLimit (Nat.le_refl _)
    rw [decide_eq_true rfl] at hStops
    refine Retry.length_attempts_le rounds ?_
    rw [Nat.zero_add, Retry.goesOn, hStops, Bool.not_true, Bool.and_false]

/-- Each attempt either fails to connect or has a generation of its own. -/
theorem fresh_connectAttempts (h : Reachable cipher c) {rounds : Nat} {before later : List Client}
    {a : Client} (hSplit : connectAttempts cipher c rounds = before ++ a :: later) :
    ConnectFails a ∧ (finalState (establishSession cipher a)).generation = a.generation ∨
      ∀ b ∈ before ++ [a],
        (finalState (establishSession cipher a)).generation ≠ b.generation := by
  have hHere := Retry.attempt_eq hSplit
  obtain hFailed | hNew := generation_afterFailure cipher a
  · exact .inl hFailed
  · right
    intro b hb
    have hLength := length_connectAttempts_le h rounds
    have hSize := c.reconnectAttempts.toNat_lt
    -- the attempt that found `b` is not after this one
    obtain ⟨front, back, hEarlier⟩ := List.append_of_mem hb
    have hB : connectAttempts cipher c rounds = front ++ b :: (back ++ later) := by
      rw [hSplit, List.append_cons, hEarlier]
      simp
    have hOrder : front.length ≤ before.length := by
      have hCount := congrArg List.length hEarlier
      simp at hCount
      omega
    have hTotal := congrArg List.length hSplit
    rw [List.length_append, List.length_cons] at hTotal
    have hFound := Retry.attempt_eq hB
    have hFresh := generation_fresh cipher c hOrder (by omega)
    have hSame : (finalState (establishSession cipher a)).generation = a.generation + 1 := hNew
    rw [hSame, hHere, hFound]
    exact hFresh

/-- When every attempt fails, the last one is followed by the end. -/
theorem connect_exhausted (h : Reachable cipher c) (hIdle : c.connected = false) (now : Int)
    {rounds : Nat} (hRounds : c.reconnectAttempts.toNat < rounds)
    (hFails : ∀ a ∈ connectAttempts cipher c rounds, attemptFails cipher a = true) :
    ∃ s, connect cipher now rounds c = .error (.reconnect "connection attempts exhausted") s ∧
      s.connected = false ∧ s.link.connection.connected = false ∧
      s.link.connection.crypto = none := by
  obtain ⟨rounds, rfl⟩ := Nat.exists_eq_add_one_of_ne_zero (Nat.ne_of_gt (Nat.zero_lt_of_lt hRounds))
  have hLength := length_connectAttempts_le h (rounds + 1)
  have hLoop : connectLoop cipher now (rounds + 1) (UInt32.ofNat 0) c = _ := connectLoop_eq rfl
  have hLast := Retry.stops_or_length_eq (r := reconnecting cipher c.reconnectAttempts) hFails
  unfold connectAttempts at hLength hFails
  generalize hMade : (reconnecting cipher c.reconnectAttempts).attempts (rounds + 1) 0 c = made
    at hLength hFails hLast hLoop
  have hSome : made.length ≠ 0 := by
    rw [← hMade]
    simp [Retry.attempts]
  have hLastFails : attemptFails cipher ((afterFailure cipher)^[made.length - 1] c) = true := by
    have hEnd : made.length - 1 < ((reconnecting cipher c.reconnectAttempts).attempts
        (rounds + 1) 0 c).length := by
      rw [hMade]
      omega
    have hMem := Retry.mem_attempts_of_lt hEnd
    rw [hMade] at hMem
    exact hFails _ hMem
  have hStops : (reconnecting cipher c.reconnectAttempts).stops (0 + made.length - 1) = true := by
    obtain hStops | hAll := hLast
    · exact hStops
    · by_cases hLimit : c.reconnectAttempts = UNREACHABLE_LIMIT
      · -- as many attempts as the count has values, so one of them succeeded
        obtain hOther | ⟨k, hCount, hSucceeds⟩ := h
        · exact absurd hLimit hOther
        · have hMax : c.reconnectAttempts.toNat = 2 ^ 32 - 1 := congrArg UInt32.toNat hLimit
          have hEarly : k < ((reconnecting cipher c.reconnectAttempts).attempts (rounds + 1) 0
              c).length := by
            rw [hMade]
            omega
          have hMem := Retry.mem_attempts_of_lt hEarly
          rw [hMade] at hMem
          have hFailed := hFails _ hMem
          rw [show (reconnecting cipher c.reconnectAttempts).after = afterFailure cipher from rfl,
            hSucceeds] at hFailed
          cases hFailed
      · rw [stops_eq cipher hLimit (by omega)]
        exact decide_eq_true (by omega)
  have hSettings := settings_iterate cipher c (made.length - 1)
  have hAfter := settings_afterFailure cipher ((afterFailure cipher)^[made.length - 1] c)
  refine ⟨afterFailure cipher ((afterFailure cipher)^[made.length - 1] c), ?_, ?_, rfl, rfl⟩
  · rw [connect_of_idle hIdle]
    refine hLoop.trans ?_
    rw [hStops]
    unfold connectAnswer
    unfold attemptFails at hLastFails
    cases hSession : establishSession cipher ((afterFailure cipher)^[made.length - 1] c) with
    | ok _ s => simp [hSession] at hLastFails
    | error e s => rfl
  · rw [hAfter.connected, hSettings.connected, hIdle]

/--
**Reconnecting is bounded.** A call of `Connect` on a client that is not connected makes at
most one attempt more than its policy allows to fail, each on a generation of its own unless
its connect failed, and throws, disconnected and without a session crypto, if none succeeds:
exactly when the limit of the policy is not the largest there is, or an attempt succeeds
before the count has come around.
-/
theorem connect_bounded_iff (cipher : Cipher) (c : Client) (hIdle : c.connected = false) :
    Bounded cipher c ↔ Reachable cipher c := by
  constructor
  · intro hBounded
    by_contra hNever
    obtain ⟨hLimit, hFails⟩ := not_or.mp hNever
    rw [not_not] at hLimit
    push Not at hFails
    have hGoes : ∀ j < 2 ^ 32, (reconnecting cipher c.reconnectAttempts).goesOn (0 + j)
        ((reconnecting cipher c.reconnectAttempts).after^[j] c) = true := by
      intro j hj
      have hFailed : attemptFails cipher ((afterFailure cipher)^[j] c) = true := by
        simpa using hFails j hj
      rw [hLimit, Retry.goesOn, stops_unreachable, Bool.not_false, Bool.and_true]
      exact hFailed
    have hLength := Retry.length_attempts_eq hGoes
    have hBound := hBounded.attempts (2 ^ 32 + 1)
    have hMax : c.reconnectAttempts.toNat = 2 ^ 32 - 1 := congrArg UInt32.toNat hLimit
    unfold connectAttempts at hBound
    omega
  · intro h
    exact ⟨length_connectAttempts_le h, fun _ _ _ _ => fresh_connectAttempts h,
      fun now _ => connect_exhausted h hIdle now⟩

end Bounded

/-- With nobody to connect to, and three attempts to repeat. -/
theorem connect_bounded_alone :
    (create "127.0.0.1" {}).connected = false ∧
      (connectAttempts plainCipher (create "127.0.0.1" {}) 10).length ≤ 4 ∧
      Bounded plainCipher (create "127.0.0.1" {}) := by
  have hBounded := (connect_bounded_iff plainCipher (create "127.0.0.1" {}) rfl).mpr
    (.inl (by decide))
  exact ⟨rfl, hBounded.attempts 10, hBounded⟩

-- ---------------------------------------------------------------------------
-- The largest limit
-- ---------------------------------------------------------------------------

/-- Nobody will answer the client. -/
structure Deserted (c : Client) : Prop where
  host : c.host = "127.0.0.1"
  lookups : c.link.network.lookups = []
  connected : c.connected = false
  closed : c.link.connection.connected = false

section Deserted

variable {cipher : Cipher} {c : Client}

/-- No address of the host is found. -/
theorem Deserted.connect (h : Deserted c) :
    Link.connect c.host c.link = .error (.connection "address resolution failed") c.link := by
  have hCheck : Link.isLoopbackAddress c.host c.link = .ok true c.link := by
    unfold Link.isLoopbackAddress
    simp [h.host]
    rfl
  have hPasses : Link.validateLoopbackHost c.host c.link = .ok () c.link := by
    unfold Link.validateLoopbackHost
    rw [bind_of_ok hCheck]
    rfl
  have hNone : Link.nextLookup c.link = .ok none c.link := by
    unfold Link.nextLookup Link.draw
    rw [h.lookups]
  unfold Link.connect
  rw [bind_of_ok hPasses, bind_of_ok (get_run c.link), if_neg (by simp [h.closed])]
  exact bind_of_ok hNone

/-- The attempt ends there. -/
theorem Deserted.establishSession (h : Deserted c) :
    establishSession cipher c = .error (.connection "address resolution failed") c := by
  have hNegotiate : negotiateCrypto cipher c =
      .error (.connection "address resolution failed") c := by
    have hConnect : onLink (Link.connect c.host) c =
        .error (.connection "address resolution failed") c := zoom_of_error h.connect
    unfold negotiateCrypto
    rw [bind_of_ok (get_run c), bind_of_error hConnect]
  unfold Client.establishSession
  rw [bind_of_error hNegotiate]

/-- The next one finds nothing either. -/
theorem Deserted.afterFailure (h : Deserted c) : Deserted (afterFailure cipher c) := by
  unfold Client.afterFailure
  rw [h.establishSession]
  exact ⟨h.host, h.lookups, h.connected, rfl⟩

/-- Nor does any later one. -/
theorem Deserted.iterate (h : Deserted c) (k : Nat) : Deserted ((Client.afterFailure cipher)^[k] c) := by
  induction k with
  | zero => exact h
  | succ k ih =>
    rw [Function.iterate_succ_apply']
    exact ih.afterFailure

/-- As many attempts as rounds, whatever their number: no answer comes. -/
theorem Deserted.endless (h : Deserted c) (hLimit : c.reconnectAttempts = UNREACHABLE_LIMIT)
    (rounds : Nat) :
    (connectAttempts cipher c rounds).length = rounds ∧
      ∃ s, Client.connect cipher 0 rounds c = .ok none s := by
  cases rounds with
  | zero => exact ⟨rfl, c, by rw [connect_of_idle h.connected]; rfl⟩
  | succ rounds =>
    have hGoes : ∀ j < rounds, (reconnecting cipher c.reconnectAttempts).goesOn (0 + j)
        ((reconnecting cipher c.reconnectAttempts).after^[j] c) = true := by
      intro j _
      rw [hLimit, Retry.goesOn, stops_unreachable, Bool.not_false, Bool.and_true]
      exact attemptFails_of_error (h.iterate j).establishSession
    have hLength := Retry.length_attempts_eq hGoes
    refine ⟨hLength, Client.afterFailure cipher ((Client.afterFailure cipher)^[rounds] c), ?_⟩
    have hLoop : connectLoop cipher 0 (rounds + 1) (UInt32.ofNat 0) c = _ := connectLoop_eq rfl
    rw [hLength, Nat.zero_add, Nat.add_sub_cancel, hLimit, stops_unreachable] at hLoop
    rw [connect_of_idle h.connected]
    refine hLoop.trans ?_
    unfold connectAnswer
    rw [(h.iterate rounds).establishSession]
    rfl

/-- Under the largest limit there is no end. -/
theorem Deserted.not_bounded (h : Deserted c) (hLimit : c.reconnectAttempts = UNREACHABLE_LIMIT) :
    ¬Bounded cipher c := by
  intro hBounded
  have hBound := hBounded.attempts (2 ^ 32 + 1)
  have hMax : c.reconnectAttempts.toNat = 2 ^ 32 - 1 := congrArg UInt32.toNat hLimit
  rw [(h.endless hLimit _).1, hMax] at hBound
  omega

end Deserted

/-- A client under the policy with the largest limit. -/
def unlimitedClient : Client :=
  (create "127.0.0.1" {}).call plainCipher (.setReconnectPolicy 0xFFFFFFFF 0)

/-- Its attempts never end. -/
theorem reconnect_unbounded :
    ¬Bounded plainCipher unlimitedClient ∧
      ∀ rounds, (connectAttempts plainCipher unlimitedClient rounds).length = rounds ∧
        ∃ s, connect plainCipher 0 rounds unlimitedClient = .ok none s := by
  have hDeserted : Deserted unlimitedClient := ⟨rfl, rfl, rfl, rfl⟩
  exact ⟨hDeserted.not_bounded rfl, hDeserted.endless rfl⟩

end Ithax.Network.Client

import Ithax.Lib.Exceptional
import Ithax.Network.Handshake

/-!
# The order of the handshake

Arbitrary calls on a handshake. Five of the nine move it to the next state, in one
order; the other four only check that the handshake is in their state, so a run may make
them any number of times there, or not at all.

## Results

* `HandshakeCall.hoare_apply`  — what a call does that returns, and one that throws.
* `steps_of_session`           — what a run that reaches the session has gone through.
-/

namespace Ithax.Network

open Ithax.Lib Ithax.Marshal

/-- The calls of a handshake. -/
inductive HandshakeCall where
  | onVersionExchangeServer (value : Value)
  | onVkSent
  | onCryptoRequestSent
  | onOkCc (value : Value)
  | onLoginChallengeSent
  | onPasswordVersion (value : Value)
  | onCryptoServerHandshake (value : Value)
  | onHandshakeResultSent
  | onCryptoHandshakeAck (value : Value)

namespace HandshakeCall

/-- What a call does. -/
def apply : HandshakeCall → HandshakeM Unit
  | onVersionExchangeServer value => Handshake.onVersionExchangeServer value
  | onVkSent => Handshake.onVkSent
  | onCryptoRequestSent => Handshake.onCryptoRequestSent
  | onOkCc value => Handshake.onOkCc value
  | onLoginChallengeSent => Handshake.onLoginChallengeSent
  | onPasswordVersion value => Handshake.onPasswordVersion value
  | onCryptoServerHandshake value => Handshake.onCryptoServerHandshake value
  | onHandshakeResultSent => Handshake.onHandshakeResultSent
  | onCryptoHandshakeAck value => Handshake.onCryptoHandshakeAck value

end HandshakeCall

/-- Where a run ends, and which of its calls returned. -/
structure HandshakeRun where
  state : HandshakeState
  succeeded : List HandshakeCall

/-- Every call in turn, whether the one before returned or threw. -/
def runCalls : HandshakeState → List HandshakeCall → HandshakeRun
  | state, [] => ⟨state, []⟩
  | state, call :: calls =>
    match call.apply state with
    | .ok _ next =>
      let run := runCalls next calls
      { run with succeeded := call :: run.succeeded }
    | .error _ next => runCalls next calls

-- ---------------------------------------------------------------------------
-- One call
-- ---------------------------------------------------------------------------

/-- The calls that succeed. -/
inductive HandshakeStep : HandshakeState → HandshakeCall → HandshakeState → Prop where
  | versionExchangeServer {items : List Value} (hItems : 7 ≤ items.length) :
      HandshakeStep .waitVersion (.onVersionExchangeServer (.tuple items)) .waitCommand
  | vkSent : HandshakeStep .waitCommand .onVkSent .waitCrypto
  | cryptoRequestSent : HandshakeStep .waitCrypto .onCryptoRequestSent .waitCrypto
  | okCc : HandshakeStep .waitCrypto (.onOkCc (.string kOkCc)) .waitAuth
  | loginChallengeSent : HandshakeStep .waitAuth .onLoginChallengeSent .waitAuth
  | passwordVersion : HandshakeStep .waitAuth (.onPasswordVersion (.int 2)) .waitAuth
  | cryptoServerHandshake {items : List Value} (hItems : 4 ≤ items.length) :
      HandshakeStep .waitAuth (.onCryptoServerHandshake (.tuple items)) .waitFuncResult
  | handshakeResultSent : HandshakeStep .waitFuncResult .onHandshakeResultSent .waitFuncResult
  | cryptoHandshakeAck {entries : List (DictEntry Value)} :
      HandshakeStep .waitFuncResult (.onCryptoHandshakeAck (.dict entries)) .session

namespace Handshake

variable {P : HandshakeState → Prop} {state : HandshakeState}

/-- A state check that passes tells the state. -/
theorem hoare_requireState (expected : HandshakeState) :
    Hoare (fun s => s = state) (requireState expected)
      (fun _ s => s = state ∧ state = expected) (fun s => s = state) := by
  rintro s rfl
  unfold requireState
  by_cases hState : s ≠ expected
  · rw [if_pos hState]
  · rw [if_neg hState]
    exact ⟨rfl, Decidable.not_not.mp hState⟩

/-- A tuple with at least so many elements. -/
theorem hoare_requireTuple (value : Value) (minSize : Nat) :
    Hoare P (requireTuple value minSize)
      (fun _ s => P s ∧ ∃ items, value = .tuple items ∧ minSize ≤ items.length) P := by
  intro s hs
  cases value with
  | tuple items =>
    unfold requireTuple
    by_cases hSize : items.length < minSize
    · simp only [if_pos hSize]
      exact hs
    · simp only [if_neg hSize]
      exact ⟨hs, items, rfl, Nat.le_of_not_lt hSize⟩
  | _ => exact hs

/-- A dictionary. -/
theorem hoare_requireDict (value : Value) :
    Hoare P (requireDict value) (fun _ s => P s ∧ ∃ entries, value = .dict entries) P := by
  intro s hs
  cases value with
  | dict entries => exact ⟨hs, entries, rfl⟩
  | _ => exact hs

/-- A string, with its value. -/
theorem hoare_requireString (value : Value) :
    Hoare P (requireString value) (fun answer s => P s ∧ value = .string answer) P := by
  intro s hs
  cases value with
  | string answer => exact ⟨hs, rfl⟩
  | _ => exact hs

/-- An integer, with its value. -/
theorem hoare_requireInt (value : Value) :
    Hoare P (requireInt value) (fun version s => P s ∧ value = .int version) P := by
  intro s hs
  cases value with
  | int version => exact ⟨hs, rfl⟩
  | _ => exact hs

/-- A call that needs the state `expected` and then checks nothing. -/
theorem hoare_check {expected : HandshakeState} {call : HandshakeCall}
    (hStep : HandshakeStep expected call expected) :
    Hoare (fun s => s = state) (requireState expected)
      (fun _ next => HandshakeStep state call next) (fun s => s = state) := by
  refine (hoare_requireState expected).weaken ?_ fun _ hs => hs
  rintro - s ⟨rfl, rfl⟩
  exact hStep

end Handshake

open Handshake in
/-- A call that returns is a step; one that throws changes nothing. -/
theorem HandshakeCall.hoare_apply (call : HandshakeCall) (state : HandshakeState) :
    Hoare (fun s => s = state) call.apply (fun _ next => HandshakeStep state call next)
      (fun s => s = state) := by
  cases call with
  | onVersionExchangeServer value =>
    refine (hoare_requireState .waitVersion).bind fun _ => ?_
    refine ((hoare_requireTuple value 7).weaken (fun _ _ h => h) fun _ h => h.1).bind fun _ => ?_
    rintro s ⟨⟨rfl, rfl⟩, items, rfl, hItems⟩
    exact .versionExchangeServer hItems
  | onVkSent =>
    refine (hoare_requireState .waitCommand).bind fun _ => ?_
    rintro s ⟨rfl, rfl⟩
    exact .vkSent
  | onCryptoRequestSent => exact hoare_check .cryptoRequestSent
  | onOkCc value =>
    refine (hoare_requireState .waitCrypto).bind fun _ => ?_
    refine ((hoare_requireString value).weaken (fun _ _ h => h) fun _ h => h.1).bind
      fun answer => ?_
    by_cases hAnswer : answer = kOkCc
    · subst hAnswer
      rintro s ⟨⟨rfl, rfl⟩, rfl⟩
      exact .okCc
    · rintro s ⟨⟨rfl, rfl⟩, rfl⟩
      simp only [ne_eq, hAnswer, not_false_eq_true, if_true]
      exact rfl
  | onLoginChallengeSent => exact hoare_check .loginChallengeSent
  | onPasswordVersion value =>
    refine (hoare_requireState .waitAuth).bind fun _ => ?_
    refine ((hoare_requireInt value).weaken (fun _ _ h => h) fun _ h => h.1).bind
      fun version => ?_
    by_cases hVersion : version = 2
    · subst hVersion
      rintro s ⟨⟨rfl, rfl⟩, rfl⟩
      exact .passwordVersion
    · rintro s ⟨⟨rfl, rfl⟩, rfl⟩
      simp only [ne_eq, hVersion, not_false_eq_true, if_true]
      exact rfl
  | onCryptoServerHandshake value =>
    refine (hoare_requireState .waitAuth).bind fun _ => ?_
    refine ((hoare_requireTuple value 4).weaken (fun _ _ h => h) fun _ h => h.1).bind fun _ => ?_
    rintro s ⟨⟨rfl, rfl⟩, items, rfl, hItems⟩
    exact .cryptoServerHandshake hItems
  | onHandshakeResultSent => exact hoare_check .handshakeResultSent
  | onCryptoHandshakeAck value =>
    refine (hoare_requireState .waitFuncResult).bind fun _ => ?_
    refine ((hoare_requireDict value).weaken (fun _ _ h => h) fun _ h => h.1).bind fun _ => ?_
    rintro s ⟨⟨rfl, rfl⟩, entries, rfl⟩
    exact .cryptoHandshakeAck

/-- A call that succeeds is a step. -/
theorem HandshakeCall.step_of_ok {call : HandshakeCall} {state next : HandshakeState}
    (hRun : call.apply state = .ok () next) : HandshakeStep state call next := by
  have hApply := call.hoare_apply state state rfl
  rw [hRun] at hApply
  exact hApply

/-- A call that throws changes nothing. -/
theorem HandshakeCall.apply_error {call : HandshakeCall} {state next : HandshakeState}
    {e : HandshakeError} (hRun : call.apply state = .error e next) : next = state := by
  have hApply := call.hoare_apply state state rfl
  rw [hRun] at hApply
  exact hApply

-- ---------------------------------------------------------------------------
-- Runs
-- ---------------------------------------------------------------------------

/-- Calls that succeed one after the other, from a state to the session. -/
inductive Completes : HandshakeState → List HandshakeCall → Prop where
  | session : Completes .session []
  | step {state next : HandshakeState} {call : HandshakeCall} {calls : List HandshakeCall}
      (hStep : HandshakeStep state call next) (hRest : Completes next calls) :
      Completes state (call :: calls)

/-- The calls of a run that succeed, when it ends in the session. -/
theorem completes_runCalls : ∀ (calls : List HandshakeCall) (state : HandshakeState),
    (runCalls state calls).state = .session → Completes state (runCalls state calls).succeeded
  | [], state, hSession => by
    obtain rfl : state = .session := hSession
    exact .session
  | call :: calls, state, hSession => by
    rw [runCalls] at hSession ⊢
    cases hRun : call.apply state with
    | ok result next =>
      rw [hRun] at hSession
      exact .step (HandshakeCall.step_of_ok hRun) (completes_runCalls calls next hSession)
    | error e next =>
      rw [hRun] at hSession
      rw [← HandshakeCall.apply_error hRun]
      exact completes_runCalls calls next hSession

/-- Nothing succeeds in the session. -/
theorem runCalls_session : ∀ calls : List HandshakeCall,
    runCalls .session calls = ⟨.session, []⟩
  | [] => rfl
  | call :: calls => by
    rw [runCalls]
    cases hRun : call.apply .session with
    | ok result next => cases HandshakeCall.step_of_ok hRun
    | error e next =>
      rw [HandshakeCall.apply_error hRun]
      exact runCalls_session calls

/-- A run that has reached the session stays as it is. -/
theorem runCalls_append_of_session : ∀ (calls rest : List HandshakeCall) (state : HandshakeState),
    (runCalls state calls).state = .session →
      runCalls state (calls ++ rest) = runCalls state calls
  | [], rest, state, hSession => by
    obtain rfl : state = .session := hSession
    exact runCalls_session rest
  | call :: calls, rest, state, hSession => by
    rw [List.cons_append, runCalls, runCalls]
    rw [runCalls] at hSession
    cases hRun : call.apply state with
    | ok result next =>
      rw [hRun] at hSession
      simp only [runCalls_append_of_session calls rest next hSession]
    | error e next =>
      rw [hRun] at hSession
      exact runCalls_append_of_session calls rest next hSession

namespace Completes

/-- From `WaitFuncResult`: results, and then the acknowledgement. -/
theorem waitFuncResult : ∀ {calls : List HandshakeCall}, Completes .waitFuncResult calls →
    ∃ results entries, (∀ call ∈ results, call = .onHandshakeResultSent) ∧
      calls = results ++ [.onCryptoHandshakeAck (.dict entries)]
  | _, .step .handshakeResultSent hRest => by
    obtain ⟨results, entries, hResults, rfl⟩ := hRest.waitFuncResult
    exact ⟨.onHandshakeResultSent :: results, entries, by simpa using hResults, rfl⟩
  | _, .step (@HandshakeStep.cryptoHandshakeAck entries) .session =>
    ⟨[], entries, by simp, rfl⟩

/-- From `WaitAuth`: logins and password versions, and then the server handshake. -/
theorem waitAuth : ∀ {calls : List HandshakeCall}, Completes .waitAuth calls →
    ∃ login items rest,
      (∀ call ∈ login, call = .onLoginChallengeSent ∨ call = .onPasswordVersion (.int 2)) ∧
      4 ≤ items.length ∧ Completes .waitFuncResult rest ∧
      calls = login ++ .onCryptoServerHandshake (.tuple items) :: rest
  | _, .step .loginChallengeSent hRest => by
    obtain ⟨login, items, rest, hLogin, hItems, hAfter, rfl⟩ := hRest.waitAuth
    exact ⟨.onLoginChallengeSent :: login, items, rest,
      List.forall_mem_cons.mpr ⟨Or.inl rfl, hLogin⟩, hItems, hAfter, rfl⟩
  | _, .step .passwordVersion hRest => by
    obtain ⟨login, items, rest, hLogin, hItems, hAfter, rfl⟩ := hRest.waitAuth
    exact ⟨.onPasswordVersion (.int 2) :: login, items, rest,
      List.forall_mem_cons.mpr ⟨Or.inr rfl, hLogin⟩, hItems, hAfter, rfl⟩
  | _, .step (@HandshakeStep.cryptoServerHandshake items hItems) hRest =>
    ⟨[], items, _, fun _ hMem => absurd hMem List.not_mem_nil, hItems, hRest, rfl⟩

/-- From `WaitCrypto`: requests, and then the answer `OK CC`. -/
theorem waitCrypto {calls : List HandshakeCall} (h : Completes .waitCrypto calls) :
    ∃ requests rest, (∀ call ∈ requests, call = .onCryptoRequestSent) ∧
      Completes .waitAuth rest ∧ calls = requests ++ .onOkCc (.string kOkCc) :: rest := by
  generalize hState : HandshakeState.waitCrypto = state at h
  induction h with
  | session => cases hState
  | step hStep hRest ih =>
    subst hState
    cases hStep with
    | cryptoRequestSent =>
      obtain ⟨requests, rest, hRequests, hAfter, rfl⟩ := ih rfl
      exact ⟨.onCryptoRequestSent :: requests, rest,
        List.forall_mem_cons.mpr ⟨rfl, hRequests⟩, hAfter, rfl⟩
    | okCc => exact ⟨[], _, fun _ hMem => absurd hMem List.not_mem_nil, hRest, rfl⟩

/-- From `WaitVersion`: the version exchange, and then `VK`. -/
theorem waitVersion {calls : List HandshakeCall} (h : Completes .waitVersion calls) :
    ∃ items rest, 7 ≤ items.length ∧ Completes .waitCrypto rest ∧
      calls = .onVersionExchangeServer (.tuple items) :: .onVkSent :: rest := by
  cases h with
  | step hStep hRest =>
    cases hStep with
    | versionExchangeServer hItems =>
      cases hRest with
      | step hStep hRest =>
        cases hStep
        exact ⟨_, _, hItems, hRest, rfl⟩

end Completes

/-- The five calls that move the handshake, once each and in order, and between them
the calls that only check. -/
def InOrder (calls : List HandshakeCall) : Prop :=
  ∃ version requests login server results ack,
    7 ≤ version.length ∧ (∀ call ∈ requests, call = .onCryptoRequestSent) ∧
    (∀ call ∈ login, call = .onLoginChallengeSent ∨ call = .onPasswordVersion (.int 2)) ∧
    4 ≤ server.length ∧ (∀ call ∈ results, call = .onHandshakeResultSent) ∧
    calls = .onVersionExchangeServer (.tuple version) :: .onVkSent ::
      (requests ++ .onOkCc (.string kOkCc) ::
        (login ++ .onCryptoServerHandshake (.tuple server) ::
          (results ++ [.onCryptoHandshakeAck (.dict ack)])))

/-- A run that reaches the session has gone through its steps in order, and no call that
throws has changed the state. -/
theorem steps_of_session {calls done : List HandshakeCall} (hDone : done <+: calls)
    (hSession : (runCalls .waitVersion done).state = .session) :
    InOrder (runCalls .waitVersion calls).succeeded ∧
      ∀ (call : HandshakeCall) (state next : HandshakeState) (e : HandshakeError),
        call.apply state = .error e next → next = state := by
  refine ⟨?_, fun call state next e hRun => HandshakeCall.apply_error hRun⟩
  obtain ⟨rest, rfl⟩ := hDone
  rw [runCalls_append_of_session done rest _ hSession]
  obtain ⟨version, afterVk, hVersion, hCrypto, hCalls⟩ :=
    (completes_runCalls done _ hSession).waitVersion
  obtain ⟨requests, afterOk, hRequests, hAuth, rfl⟩ := hCrypto.waitCrypto
  obtain ⟨login, server, afterServer, hLogin, hServer, hResult, rfl⟩ := hAuth.waitAuth
  obtain ⟨results, ack, hResults, rfl⟩ := hResult.waitFuncResult
  exact ⟨version, requests, login, server, results, ack, hVersion, hRequests, hLogin, hServer,
    hResults, hCalls⟩

/-- The nine steps of the protocol. -/
def protocolSteps (version server ack : Value) : List HandshakeCall :=
  [.onVersionExchangeServer version, .onVkSent, .onCryptoRequestSent,
    .onOkCc (.string kOkCc), .onLoginChallengeSent, .onPasswordVersion (.int 2),
    .onCryptoServerHandshake server, .onHandshakeResultSent, .onCryptoHandshakeAck ack]

/-- An answer that comes too early, and then the nine steps. -/
def fullCalls : List HandshakeCall :=
  .onOkCc (.string kOkCc) ::
    protocolSteps (.tuple (List.replicate 7 .none)) (.tuple (List.replicate 4 .none)) (.dict [])

/-- A handshake of nine calls. -/
theorem steps_of_session_fullCalls :
    (runCalls .waitVersion fullCalls).state = .session ∧
      (runCalls .waitVersion fullCalls).succeeded.length = 9 ∧
      InOrder (runCalls .waitVersion fullCalls).succeeded := by
  have hSession : (runCalls .waitVersion fullCalls).state = .session := by decide +kernel
  exact ⟨hSession, by decide +kernel, (steps_of_session (List.prefix_refl fullCalls) hSession).1⟩

/-- A client and a server that are content with the five calls. -/
def shortCalls : List HandshakeCall :=
  [.onVersionExchangeServer (.tuple (List.replicate 7 .none)), .onVkSent,
    .onOkCc (.string kOkCc), .onCryptoServerHandshake (.tuple (List.replicate 4 .none)),
    .onCryptoHandshakeAck (.dict [])]

/-- Four of the nine steps can be left out. -/
theorem not_protocolSteps_shortCalls :
    (runCalls .waitVersion shortCalls).state = .session ∧
      ¬∃ version server ack,
        (protocolSteps version server ack).Sublist
          (runCalls .waitVersion shortCalls).succeeded := by
  refine ⟨by decide +kernel, ?_⟩
  rintro ⟨version, server, ack, hSublist⟩
  have hLength : (runCalls .waitVersion shortCalls).succeeded.length = 5 := by decide +kernel
  have hLe : 9 ≤ (runCalls .waitVersion shortCalls).succeeded.length := hSublist.length_le
  omega

end Ithax.Network

import Ithax.Lib.Exceptional
import Ithax.Network.Duplex

/-!
# Injected ciphertexts

The two endpoints of a duplex session, and ciphertexts that neither of them made. An
injected ciphertext meets the `Decrypt` of one endpoint between two of its genuine
messages. A `Decrypt` that throws has not touched its vector, so a run in which every
injected ciphertext is rejected is the run without them.

## Results

* `SessionCrypto.decrypt_error`  — a `Decrypt` that throws leaves its session as it was.
* `wireRun_eq`                   — rejected ciphertexts do not show.
* `lockstep_of_run`              — endpoints in lock step, with injections.
-/

namespace Ithax.Network

open Ithax.Lib

/-- A `Decrypt` that throws leaves its session as it was. -/
theorem SessionCrypto.decrypt_error {cipher : Cipher} {fault : Option EvpFault}
    {ciphertext : Bytes} {crypto next : SessionCrypto} {e : SessionCryptoError}
    (hRun : crypto.decrypt cipher fault ciphertext = .error e next) : next = crypto := by
  unfold SessionCrypto.decrypt at hRun
  split at hRun
  · cases hRun
    rfl
  · cases fault with
    | some fault =>
      cases hRun
      rfl
    | none =>
      cases hOutput : cipher.decrypt crypto.key crypto.iv ciphertext with
      | none =>
        rw [hOutput] at hRun
        cases hRun
        rfl
      | some output =>
        rw [hOutput] at hRun
        cases hRun

/-- What happens on the wire: a step of an endpoint, or a ciphertext from elsewhere that
reaches one. -/
inductive WireAction where
  | endpoint (action : DuplexAction)
  | injected (side : Side) (fault : Option EvpFault) (ciphertext : Bytes)
  deriving DecidableEq, Repr

def WireAction.genuine? : WireAction → Option DuplexAction
  | endpoint action => some action
  | injected _ _ _ => none

namespace Duplex

/-- An injected ciphertext matches no `Encrypt`, so nothing is recorded for it. -/
def wireStep (cipher : Cipher) (d : Duplex) : WireAction → Duplex
  | .endpoint action => step cipher d action
  | .injected s fault ciphertext =>
    { d with
      crypto := Function.update d.crypto s
        (finalState ((d.crypto s).decrypt cipher fault ciphertext)) }

def wireRun (cipher : Cipher) (d : Duplex) (actions : List WireAction) : Duplex :=
  actions.foldl (wireStep cipher) d

/-- The endpoints send in turn, and the ciphertext makes `Decrypt` throw. -/
def Admitted (cipher : Cipher) (d : Duplex) : WireAction → Prop
  | .endpoint action => InTurn d action
  | .injected s fault ciphertext =>
    ∃ e next, (d.crypto s).decrypt cipher fault ciphertext = .error e next

/-- A run all of whose steps are admitted. -/
def InLockstep (cipher : Cipher) : Duplex → List WireAction → Prop
  | _, [] => True
  | d, action :: actions =>
    Admitted cipher d action ∧ InLockstep cipher (wireStep cipher d action) actions

/-- No message is on its way. -/
def Quiet (d : Duplex) : Prop := ∀ s, d.inbox s = []

end Duplex

open Duplex

variable {cipher : Cipher} {d : Duplex}

/-- A rejected ciphertext leaves everything as it was. -/
theorem wireStep_rejected {s : Side} {fault : Option EvpFault} {ciphertext : Bytes}
    (hRejected : Admitted cipher d (.injected s fault ciphertext)) :
    wireStep cipher d (.injected s fault ciphertext) = d := by
  obtain ⟨e, next, hRun⟩ := hRejected
  have hNext : next = d.crypto s := SessionCrypto.decrypt_error hRun
  have hFinal : finalState ((d.crypto s).decrypt cipher fault ciphertext) = d.crypto s := by
    rw [hRun]
    exact hNext
  rw [wireStep, hFinal, Function.update_eq_self]

/-- Rejected ciphertexts do not show: the run is that of the endpoints, who take turns
in it. -/
theorem wireRun_eq : ∀ (actions : List WireAction) (d : Duplex), InLockstep cipher d actions →
    wireRun cipher d actions = run cipher d (actions.filterMap WireAction.genuine?) ∧
      TakesTurns cipher d (actions.filterMap WireAction.genuine?)
  | [], _, _ => ⟨rfl, trivial⟩
  | .endpoint action :: actions, d, ⟨hTurn, hRest⟩ => by
    obtain ⟨hRun, hTurns⟩ := wireRun_eq actions _ hRest
    exact ⟨hRun, hTurn, hTurns⟩
  | .injected s fault ciphertext :: actions, d, ⟨hRejected, hRest⟩ => by
    rw [wireStep_rejected hRejected] at hRest
    obtain ⟨hRun, hTurns⟩ := wireRun_eq actions d hRest
    refine ⟨?_, hTurns⟩
    calc wireRun cipher d (.injected s fault ciphertext :: actions)
        = wireRun cipher (wireStep cipher d (.injected s fault ciphertext)) actions := rfl
      _ = wireRun cipher d actions := by rw [wireStep_rejected hRejected]
      _ = _ := hRun

/-- In lock step with nothing in flight, the two sessions are one. -/
theorem Lockstep.crypto_eq (h : Lockstep cipher d) (hQuiet : d.Quiet) :
    d.crypto .left = d.crypto .right := by
  obtain ⟨s, -, hChain⟩ := h
  rw [hQuiet s] at hChain
  have hSame : d.crypto s = d.crypto s.peer := hChain
  cases s with
  | left => exact hSame
  | right => exact hSame.symm

/-- Endpoints in lock step read back what was sent, have the same vector whenever nothing
is in flight, and do not notice the ciphertexts that they reject. -/
theorem lockstep_of_run (hCipher : cipher.Lawful) {crypto : SessionCrypto}
    {actions : List WireAction} (hRun : InLockstep cipher (start crypto) actions) :
    (wireRun cipher (start crypto) actions).Faithful ∧
      ((wireRun cipher (start crypto) actions).Quiet →
        ((wireRun cipher (start crypto) actions).crypto .left).currentIv =
          ((wireRun cipher (start crypto) actions).crypto .right).currentIv) ∧
      wireRun cipher (start crypto) actions =
        run cipher (start crypto) (actions.filterMap WireAction.genuine?) ∧
      ∀ (session next : SessionCrypto) (fault : Option EvpFault) (ciphertext : Bytes)
        (e : SessionCryptoError), session.decrypt cipher fault ciphertext = .error e next →
        next.currentIv = session.currentIv := by
  obtain ⟨hEq, hTurns⟩ := wireRun_eq actions _ hRun
  have hStart : Lockstep cipher (start crypto) := ⟨.left, rfl, rfl⟩
  have hEmpty : (start crypto).Faithful := fun _ hMem => absurd hMem List.not_mem_nil
  obtain ⟨hLock, hFaithful⟩ := Lockstep.run hCipher _ _ hStart hEmpty hTurns
  rw [← hEq] at hLock hFaithful
  refine ⟨hFaithful, fun hQuiet => ?_, hEq, fun session next fault ciphertext e hError => ?_⟩
  · rw [hLock.crypto_eq hQuiet]
  · rw [SessionCrypto.decrypt_error hError]

/-- A request, a ciphertext that is too short and one with bad padding before it
arrives, the next request, and the answer. -/
def injectedActions : List WireAction :=
  [.endpoint (.send .left [1]), .endpoint (.send .left [2, 3]), .endpoint (.receive .right),
    .injected .right none [1, 2, 3], .injected .right none (List.replicate 16 0),
    .endpoint (.receive .right), .endpoint (.send .right [4]), .injected .left none [],
    .endpoint (.receive .left)]

theorem lockstep_of_run_injectedActions :
    (wireRun xorCipher (start sessionStart) injectedActions).received.length = 3 ∧
      (wireRun xorCipher (start sessionStart) injectedActions).Faithful := by
  refine ⟨by decide, (lockstep_of_run xorCipher_lawful ?_).1⟩
  simp only [injectedActions, InLockstep, Admitted, InTurn]
  refine ⟨by decide, by decide, trivial, ⟨_, _, rfl⟩, ⟨_, _, rfl⟩, trivial, by decide,
    ⟨_, _, rfl⟩, trivial, trivial⟩

end Ithax.Network

import Ithax.Marshal.Decode
import Ithax.Network.Packet
import Mathlib.Data.List.Induction

/-!
# Call requests and their handlers

`CallRequest::Decode` of `network/packet.cpp` and `network/dispatcher.cpp`. A handler is
user code; what it does and returns is its outcome, of any type, and `Dispatch` ends in
the call of a handler or throws.

## Results

* `lookup_registered`       — after any registrations the table holds the last handler
                              registered for each service and method.
* `hasHandler_registered`   — `HasHandler` knows exactly the pairs that were registered.
* `dispatch_eq_ok_iff`      — the calls that reach a handler.
* `dispatch_of_decode`      — what becomes of a call that `CallRequest::Decode` accepts.
-/

namespace Ithax.Network

open Ithax.Lib Ithax.Marshal

-- ---------------------------------------------------------------------------
-- Call requests
-- ---------------------------------------------------------------------------

structure CallRequest where
  service : Bytes := []
  method : Bytes := []
  args : List Value := []
  kwargs : Option Value := none
  callId : Int64 := 0

/-- Why `CallRequest::Decode` has no result. -/
inductive CallError where
  | packet (e : PacketFormatError)
  | marshal (e : Stop MarshalError)
  | fault (f : Fault)
  deriving DecidableEq, Repr

namespace CallRequest

/-- The data of the first substream among the items. -/
def firstSubStream : List Value → Option Bytes
  | [] => none
  | .subStream data :: _ => some data
  | _ :: items => firstSubStream items

/-- The wrapper's substream, decoded. -/
def decodeBody (packet : Packet) : Except CallError Value :=
  match packet.payload with
  | none => .error (.fault .nullPointer)
  | some (.tuple (wrapper :: _)) =>
    match wrapper with
    | .tuple (first :: second :: items) =>
      match firstSubStream (first :: second :: items) with
      | some data =>
        match Marshal.decode data true with
        | .ok body => .ok body
        | .error e => .error (.marshal e)
      | none => .error (.packet ⟨"call request has no substream"⟩)
    | _ => .error (.packet ⟨"call request wrapper is malformed"⟩)
  | some _ => .error (.packet ⟨"call request payload is empty"⟩)

/-- A service may be given by its number; anything else leaves it empty. -/
def serviceName : Value → Bytes
  | .string s => s
  | .int i => ascii (toString i.toInt)
  | _ => []

/-- The third item of a body, where it is a tuple. -/
def bodyArgs : List Value → List Value
  | .tuple args :: _ => args
  | _ => []

/-- The fourth item of a body, where it is not `None`. -/
def bodyKwargs : List Value → Option Value
  | _ :: kwargs :: _ => if kwargs.isNone then none else some kwargs
  | _ => none

def decode (packet : Packet) : Except CallError CallRequest :=
  if packet.type ≠ .callReq then .error (.packet ⟨"packet is not a call request"⟩)
  else do
    match ← decodeBody packet with
    | .tuple (service :: method :: rest) =>
      match requireString method with
      | .ok method =>
        return {
          service := serviceName service, method
          args := bodyArgs rest
          kwargs := bodyKwargs rest
          callId := packet.source.callId }
      | .error e => throw (.packet e)
    | _ => throw (.packet ⟨"call request body is malformed"⟩)

end CallRequest

-- ---------------------------------------------------------------------------
-- The dispatcher
-- ---------------------------------------------------------------------------

/-- A handler, with the outcomes its calls have. -/
abbrev Handler (Out : Type) := CallRequest → Packet → Out

/-- The handlers of the methods of one service. -/
abbrev MethodTable (Out : Type) := Bytes → Option (Handler Out)

/-- `m_handlers`. -/
structure Dispatcher (Out : Type) where
  handlers : Bytes → Option (MethodTable Out) := fun _ => none

/-- `DispatcherError`, its subclass for unknown methods, and what passes through. -/
inductive DispatchError where
  | call (e : CallError)
  | dispatcher (message : String)
  | unknownMethod (message : Bytes)
  deriving DecidableEq, Repr

/-- A `std::map` from methods to handlers, in the order of its keys. -/
structure MethodMap (Out : Type) where
  entries : List (Bytes × Handler Out)
  nodup : (entries.map Prod.fst).Nodup

namespace Dispatcher

variable {Out : Type}

/-- `Register`: `operator[]` makes the table of a service that has none. -/
def register (d : Dispatcher Out) (service method : Bytes) (handler : Handler Out) :
    Dispatcher Out :=
  let methods := (d.handlers service).getD fun _ => none
  ⟨Function.update d.handlers service (some (Function.update methods method (some handler)))⟩

def registerService (d : Dispatcher Out) (service : Bytes) (methods : MethodMap Out) :
    Dispatcher Out :=
  methods.entries.foldl (fun d entry => d.register service entry.1 entry.2) d

def dispatch (d : Dispatcher Out) (packet : Packet) : Except DispatchError Out :=
  if packet.type ≠ .callReq then .error (.dispatcher "dispatcher only handles call requests")
  else
    match CallRequest.decode packet with
    | .error e => .error (.call e)
    | .ok call =>
      match d.handlers call.service with
      | none => .error (.unknownMethod (ascii "unknown service: " ++ call.service))
      | some methods =>
        match methods call.method with
        | none =>
          .error (.unknownMethod
            (ascii "unknown method: " ++ call.service ++ ascii "." ++ call.method))
        | some handler => .ok (handler call packet)

def hasHandler (d : Dispatcher Out) (service method : Bytes) : Bool :=
  match d.handlers service with
  | none => false
  | some methods => (methods method).isSome

-- ---------------------------------------------------------------------------
-- The table
-- ---------------------------------------------------------------------------

/-- The handler for a method of a service. -/
def lookup (d : Dispatcher Out) (service method : Bytes) : Option (Handler Out) :=
  (d.handlers service).bind fun methods => methods method

theorem hasHandler_eq (d : Dispatcher Out) (service method : Bytes) :
    d.hasHandler service method = (d.lookup service method).isSome := by
  unfold hasHandler lookup
  cases d.handlers service <;> rfl

theorem lookup_register (d : Dispatcher Out) (service method : Bytes) (handler : Handler Out)
    (service' method' : Bytes) :
    (d.register service method handler).lookup service' method' =
      if service' = service ∧ method' = method then some handler
      else d.lookup service' method' := by
  by_cases hService : service' = service
  · subst hService
    have hTable : (d.register service' method handler).handlers service' =
        some (Function.update ((d.handlers service').getD fun _ => none) method
          (some handler)) := Function.update_self ..
    rw [lookup, hTable]
    by_cases hMethod : method' = method
    · subst hMethod
      rw [if_pos ⟨rfl, rfl⟩]
      exact Function.update_self ..
    · rw [if_neg fun h => hMethod h.2, lookup]
      refine (Function.update_of_ne hMethod ..).trans ?_
      cases d.handlers service' <;> rfl
  · have hTable : (d.register service method handler).handlers service' =
        d.handlers service' := Function.update_of_ne hService ..
    rw [if_neg fun h => hService h.1, lookup, lookup, hTable]

/-- The keys of a map are different, so the order of its entries does not matter. -/
theorem lookup_registerService (d : Dispatcher Out) (service : Bytes) (methods : MethodMap Out)
    (service' method' : Bytes) :
    (d.registerService service methods).lookup service' method' =
      if service' = service then
        (methods.entries.lookup method').or (d.lookup service' method')
      else d.lookup service' method' := by
  obtain ⟨entries, nodup⟩ := methods
  unfold registerService
  induction entries generalizing d with
  | nil => simp
  | cons entry entries ih =>
    obtain ⟨method, handler⟩ := entry
    obtain ⟨hFresh, hRest⟩ : method ∉ entries.map Prod.fst ∧ (entries.map Prod.fst).Nodup :=
      List.nodup_cons.mp nodup
    have hTail := ih (d.register service method handler) hRest
    rw [List.foldl_cons, hTail, lookup_register]
    by_cases hService : service' = service
    · rw [if_pos hService, if_pos hService]
      by_cases hMethod : method' = method
      · have hAbsent : entries.lookup method = none := by
          rw [List.lookup_eq_none_iff]
          intro p hp
          exact bne_iff_ne.mpr fun h => hFresh (List.mem_map.mpr ⟨p, hp, h.symm⟩)
        rw [hMethod, if_pos ⟨hService, rfl⟩, hAbsent, List.lookup_cons_self]
        rfl
      · have hOther : (method' == method) = false := beq_eq_false_iff_ne.mpr hMethod
        rw [if_neg fun h => hMethod h.2, List.lookup_cons, hOther]
    · rw [if_neg hService, if_neg hService, if_neg fun h => hService h.1]

-- ---------------------------------------------------------------------------
-- Histories
-- ---------------------------------------------------------------------------

end Dispatcher

/-- A call that registers handlers. -/
inductive Registration (Out : Type) where
  | method (service method : Bytes) (handler : Handler Out)
  | service (service : Bytes) (methods : MethodMap Out)

namespace Registration

variable {Out : Type}

/-- What the call registers for a method of a service. -/
def handler? (r : Registration Out) (service method : Bytes) : Option (Handler Out) :=
  match r with
  | .method s m handler => if service = s ∧ method = m then some handler else none
  | .service s methods => if service = s then methods.entries.lookup method else none

/-- The handler registered last for a method of a service, in calls oldest first. -/
def latest (history : List (Registration Out)) (service method : Bytes) :
    Option (Handler Out) :=
  history.reverse.findSome? fun r => r.handler? service method

end Registration

namespace Dispatcher

variable {Out : Type}

def perform (d : Dispatcher Out) : Registration Out → Dispatcher Out
  | .method service method handler => d.register service method handler
  | .service service methods => d.registerService service methods

/-- A dispatcher after a history of registrations. -/
def registered (history : List (Registration Out)) : Dispatcher Out :=
  history.foldl perform {}

theorem lookup_perform (d : Dispatcher Out) (r : Registration Out) (service method : Bytes) :
    (d.perform r).lookup service method =
      (r.handler? service method).or (d.lookup service method) := by
  cases r with
  | method s m handler =>
    rw [perform, lookup_register, Registration.handler?]
    by_cases hPair : service = s ∧ method = m
    · rw [if_pos hPair, if_pos hPair]
      rfl
    · rw [if_neg hPair, if_neg hPair]
      rfl
  | service s methods =>
    rw [perform, lookup_registerService, Registration.handler?]
    by_cases hService : service = s
    · rw [if_pos hService, if_pos hService]
    · rw [if_neg hService, if_neg hService]
      rfl

theorem lookup_registered (history : List (Registration Out)) (service method : Bytes) :
    (registered history).lookup service method =
      Registration.latest history service method := by
  -- on the last call, which overrides what is there
  induction history using List.reverseRecOn with
  | nil => rfl
  | append_singleton history r ih =>
    have hLast : registered (history ++ [r]) = (registered history).perform r :=
      List.foldl_append ..
    rw [hLast, lookup_perform, ih, Registration.latest, Registration.latest,
      List.reverse_append, List.reverse_singleton, List.singleton_append, List.findSome?_cons]
    cases r.handler? service method <;> rfl

theorem hasHandler_registered (history : List (Registration Out)) (service method : Bytes) :
    (registered history).hasHandler service method = true ↔
      ∃ r ∈ history, (r.handler? service method).isSome := by
  rw [hasHandler_eq, lookup_registered, Registration.latest, List.findSome?_isSome_iff]
  simp only [List.mem_reverse]

-- ---------------------------------------------------------------------------
-- Dispatching
-- ---------------------------------------------------------------------------

/-- The only way `CallRequest::Decode` accepts a packet. -/
theorem type_of_decode {packet : Packet} {call : CallRequest}
    (h : CallRequest.decode packet = .ok call) : packet.type = .callReq := by
  by_contra hType
  rw [CallRequest.decode, if_pos hType] at h
  cases h

theorem dispatch_of_decode (d : Dispatcher Out) {packet : Packet} {call : CallRequest}
    (h : CallRequest.decode packet = .ok call) :
    (∃ handler, d.lookup call.service call.method = some handler ∧
      d.dispatch packet = .ok (handler call packet)) ∨
    (d.lookup call.service call.method = none ∧
      ∃ message, d.dispatch packet = .error (.unknownMethod message)) := by
  rw [dispatch, if_neg (not_not.mpr (type_of_decode h)), h, lookup]
  cases hService : d.handlers call.service with
  | none =>
    right
    simp only [hService]
    exact ⟨rfl, _, rfl⟩
  | some methods =>
    cases hMethod : methods call.method with
    | none =>
      right
      simp only [hService, hMethod, Option.bind_some, true_and]
      exact ⟨_, rfl⟩
    | some handler =>
      left
      simp only [hService, hMethod, Option.bind_some]
      exact ⟨handler, rfl, rfl⟩

/-- `Dispatch` returns exactly for the requests of registered methods. -/
theorem dispatch_eq_ok_iff (d : Dispatcher Out) (packet : Packet) (out : Out) :
    d.dispatch packet = .ok out ↔
      ∃ call handler, CallRequest.decode packet = .ok call ∧
        d.lookup call.service call.method = some handler ∧ out = handler call packet := by
  constructor
  · intro hRun
    cases hCall : CallRequest.decode packet with
    | error e =>
      rw [dispatch, hCall] at hRun
      split at hRun <;> cases hRun
    | ok call =>
      rcases d.dispatch_of_decode hCall with ⟨handler, hLookup, hOk⟩ | ⟨-, message, hError⟩
      · exact ⟨call, handler, rfl, hLookup, Except.ok.inj (hRun.symm.trans hOk)⟩
      · exact absurd (hRun.symm.trans hError) (by simp)
  · rintro ⟨call, handler, hCall, hLookup, rfl⟩
    rcases d.dispatch_of_decode hCall with ⟨handler', hLookup', hOk⟩ | ⟨hNone, -⟩
    · obtain rfl : handler = handler' := Option.some.inj (hLookup.symm.trans hLookup')
      exact hOk
    · exact absurd (hLookup.symm.trans hNone) (by simp)

end Dispatcher

end Ithax.Network

import Ithax.Network.Connection

/-!
# The loopback-only policy

`Connect` checks the host, and then resolves it again for the addresses that it tries. The
check asks whether some address of the first resolution is a loopback address; the loop
takes the first address of the second one that lets itself be connected to.

## Results

* `connect_loopback_iff` — for which hosts and resolutions every connection goes to a
  loopback address.
-/

namespace Ithax.Network

open Ithax.Lib

/-- An address in `127.0.0.0/8`, or `::1`. -/
def SockAddr.Loopback : SockAddr → Prop
  | .inet addr => 0x7f000000 ≤ addr.toNat ∧ addr.toNat ≤ 0x7fffffff
  | .inet6 bytes => bytes = [0, 0, 0, 0, 0, 0, 0, 0, 0, 0, 0, 0, 0, 0, 0, 1]
  | .unspec => False

instance : DecidablePred SockAddr.Loopback
  | .inet addr => inferInstanceAs (Decidable (0x7f000000 ≤ addr.toNat ∧ addr.toNat ≤ 0x7fffffff))
  | .inet6 bytes => inferInstanceAs (Decidable (bytes = _))
  | .unspec => isFalse id

/-- The test of `IsLoopbackAddress` on one entry is right. -/
theorem SockAddr.isLoopback_iff : ∀ address : SockAddr, address.isLoopback = true ↔ address.Loopback
  | .inet addr => by
    unfold isLoopback Loopback
    rw [decide_eq_true_iff, ← UInt32.toNat_inj, UInt32.toNat_shiftRight]
    show addr.toNat >>> 24 = 127 ↔ _
    rw [Nat.shiftRight_eq_div_pow]
    omega
  | .inet6 bytes => by
    unfold isLoopback Loopback
    exact decide_eq_true_iff
  | .unspec => by
    unfold isLoopback Loopback
    exact ⟨nofun, False.elim⟩

namespace Link

variable {host : String} {l next : Link} {entries : List SockAddr}

/-- The names that `IsLoopbackAddress` accepts without a resolution. -/
def isLoopbackName (host : String) : Bool :=
  host = "127.0.0.1" ∨ host = "localhost" ∨ host = "::1"

/-- The check of the host passes. -/
def Passes (host : String) (lookups : List (Option (List SockAddr))) : Prop :=
  isLoopbackName host ∨
    ∃ entries, lookups.head? = some (some entries) ∧ ∃ entry ∈ entries, entry.Loopback

/-- The answers that the check leaves. -/
def afterCheck (host : String) (lookups : List (Option (List SockAddr))) :
    List (Option (List SockAddr)) :=
  if isLoopbackName host then lookups else lookups.tail

/-- The addresses that `Connect` tries: none when the resolution fails. -/
def resolution (host : String) (lookups : List (Option (List SockAddr))) : List SockAddr :=
  ((afterCheck host lookups).head?.join).getD []

/-- Sockets and connection attempts turn out like this. -/
def answering (l : Link) (sockets : List (Option Nat)) (connects : List Bool) : Link :=
  { l with network := { l.network with sockets, connects } }

-- ---------------------------------------------------------------------------
-- The check
-- ---------------------------------------------------------------------------

/-- A link with these resolutions left. -/
def withLookups (l : Link) (lookups : List (Option (List SockAddr))) : Link :=
  { l with network := { l.network with lookups } }

@[simp] theorem withLookups_lookups (lookups : List (Option (List SockAddr))) :
    (l.withLookups lookups).network.lookups = lookups := rfl

@[simp] theorem withLookups_withLookups (first second : List (Option (List SockAddr))) :
    (l.withLookups first).withLookups second = l.withLookups second := rfl

theorem nextLookup_eq (l : Link) :
    nextLookup l = .ok l.network.lookups.head?.join (l.withLookups l.network.lookups.tail) := by
  obtain ⟨connection, peer, ⟨lookups, sockets, connects, sends, receives, faults⟩, wire⟩ := l
  cases lookups with
  | nil => rfl
  | cons answer rest => rfl

theorem any_isLoopback_iff :
    entries.any SockAddr.isLoopback = true ↔ ∃ entry ∈ entries, entry.Loopback := by
  rw [List.any_eq_true]
  simp only [SockAddr.isLoopback_iff]

/-- What the check finds, and the answers that it leaves. -/
theorem isLoopbackAddress_eq (host : String) (l : Link) : ∃ passes,
    isLoopbackAddress host l = .ok passes (l.withLookups (afterCheck host l.network.lookups)) ∧
    (passes = true ↔ Passes host l.network.lookups) := by
  unfold isLoopbackAddress Passes afterCheck
  by_cases hName : isLoopbackName host = true
  · refine ⟨true, ?_, ?_⟩
    · rw [if_pos (of_decide_eq_true hName), if_pos hName]
      rfl
    · exact ⟨fun _ => .inl hName, fun _ => rfl⟩
  · rw [if_neg hName, if_neg fun h => hName (decide_eq_true h)]
    simp only [bind, EStateM.bind, pure, nextLookup_eq]
    cases hHead : l.network.lookups.head? with
    | none =>
      refine ⟨false, rfl, nofun, ?_⟩
      rintro (hTrue | ⟨entries, hNo, -⟩)
      · exact absurd hTrue hName
      · exact nomatch hNo
    | some answer =>
      cases answer with
      | none =>
        refine ⟨false, rfl, nofun, ?_⟩
        rintro (hTrue | ⟨entries, hNo, -⟩)
        · exact absurd hTrue hName
        · exact nomatch hNo
      | some entries =>
        refine ⟨entries.any SockAddr.isLoopback, rfl, any_isLoopback_iff.trans ?_⟩
        constructor
        · exact fun h => .inr ⟨entries, rfl, h⟩
        · rintro (hTrue | ⟨entries', hSome, hEntry⟩)
          · exact absurd hTrue hName
          · obtain rfl := Option.some.inj (Option.some.inj hSome)
            exact hEntry

/-- `ValidateLoopbackHost` throws, or the check passes. -/
theorem validateLoopbackHost_eq_ok : validateLoopbackHost host l = .ok () next ↔
    Passes host l.network.lookups ∧ next = l.withLookups (afterCheck host l.network.lookups) := by
  obtain ⟨passes, hCheck, hPasses⟩ := isLoopbackAddress_eq host l
  unfold validateLoopbackHost
  simp only [bind, EStateM.bind, hCheck, ← hPasses]
  cases passes with
  | false => exact ⟨nofun, fun h => nomatch h.1⟩
  | true =>
    constructor
    · intro h
      obtain ⟨-, rfl⟩ := EStateM.Result.ok.inj h
      exact ⟨rfl, rfl⟩
    · rintro ⟨-, rfl⟩
      rfl

-- ---------------------------------------------------------------------------
-- The loop
-- ---------------------------------------------------------------------------

/-- The loop does not throw, and what it connects to is one of the addresses. -/
theorem openSocket_eq : ∀ (entries : List SockAddr) (l : Link), ∃ opened next,
    openSocket entries l = .ok opened next ∧ next.connection = l.connection ∧
    ∀ handle address, opened = some (handle, address) → address ∈ entries
  | [], l => ⟨none, l, rfl, rfl, nofun⟩
  | entry :: entries, l => by
    obtain ⟨connection, peer, ⟨lookups, sockets, connects, sends, receives, faults⟩, wire⟩ := l
    have hRest : ∀ l' : Link, l'.connection = connection → ∃ opened next,
        openSocket entries l' = .ok opened next ∧ next.connection = connection ∧
        ∀ handle address, opened = some (handle, address) → address ∈ entry :: entries := by
      intro l' hSame
      obtain ⟨opened, next, hOpen, hConnection, hMem⟩ := openSocket_eq entries l'
      exact ⟨opened, next, hOpen, hConnection.trans hSame,
        fun handle address h => List.mem_cons_of_mem _ (hMem handle address h)⟩
    match sockets, connects with
    | [], _ => exact hRest _ rfl
    | none :: _, _ => exact hRest _ rfl
    | some handle :: _, [] => exact hRest _ rfl
    | some handle :: _, false :: _ => exact hRest _ rfl
    | some handle :: _, true :: _ =>
      refine ⟨some (handle, entry), _, rfl, rfl, ?_⟩
      intro handle' address hSome
      rw [← (Prod.mk.inj (Option.some.inj hSome)).2]
      exact List.mem_cons_self

/-- Every address is the one that is connected to, if only those before it fail. -/
theorem openSocket_reaches (entry : SockAddr) (back : List SockAddr) :
    ∀ (front : List SockAddr) (l : Link), ∃ next,
    openSocket (front ++ entry :: back) (l.answering (List.replicate (front.length + 1) (some 1))
      (List.replicate front.length false ++ [true])) = .ok (some (1, entry)) next ∧
    next.connection = l.connection
  | [], _ => ⟨_, rfl, rfl⟩
  | _ :: front, l => openSocket_reaches entry back front l

-- ---------------------------------------------------------------------------
-- Connections
-- ---------------------------------------------------------------------------

/-- The link after a connection to an address was made. -/
def established (l : Link) (handle : Nat) (address : SockAddr) : Link :=
  { l with
    peer := some address
    connection :=
      { socket := handle, connected := true, generation := l.connection.generation + 1
        decoder := {}, crypto := none } }

/-- When `Connect` returns, and with what. -/
theorem connect_eq_ok_iff : connect host l = .ok () next ↔
    Passes host l.network.lookups ∧ l.connection.connected = false ∧
    ∃ entries handle address mid, (afterCheck host l.network.lookups).head?.join = some entries ∧
      openSocket entries (l.withLookups (afterCheck host l.network.lookups).tail) =
        .ok (some (handle, address)) mid ∧
      next = mid.established handle address := by
  unfold connect
  cases hValid : validateLoopbackHost host l with
  | error e mid =>
    rw [bind_of_error hValid]
    constructor
    · intro h
      cases h
    · rintro ⟨hPasses, -⟩
      rw [validateLoopbackHost_eq_ok.mpr ⟨hPasses, rfl⟩] at hValid
      cases hValid
  | ok _ checked =>
    rw [bind_of_ok hValid]
    obtain ⟨hPasses, rfl⟩ := validateLoopbackHost_eq_ok.mp hValid
    rw [bind_of_ok (get_run _)]
    by_cases hConnected :
        (l.withLookups (afterCheck host l.network.lookups)).connection.connected = true
    · rw [if_pos hConnected]
      constructor
      · intro h
        cases h
      · rintro ⟨-, hClosed, -⟩
        cases hClosed.symm.trans hConnected
    · rw [if_neg hConnected]
      beta_reduce
      rw [bind_of_ok (nextLookup_eq _)]
      simp only [withLookups_lookups, withLookups_withLookups]
      cases hLookup : (afterCheck host l.network.lookups).head?.join with
      | none =>
        constructor
        · intro h
          cases h
        · rintro ⟨-, -, entries, -, -, -, hSome, -⟩
          cases hSome
      | some entries =>
        obtain ⟨opened, mid, hRun, -, -⟩ := openSocket_eq entries
          (l.withLookups (afterCheck host l.network.lookups).tail)
        dsimp only
        rw [bind_of_ok hRun]
        cases opened with
        | none =>
          constructor
          · intro h
            cases h
          · rintro ⟨-, -, entries', handle, address, mid', hSame, hRun', -⟩
            obtain rfl := Option.some.inj hSame
            cases hRun.symm.trans hRun'
        | some socket =>
          obtain ⟨handle, address⟩ := socket
          constructor
          · intro h
            obtain ⟨-, rfl⟩ := EStateM.Result.ok.inj h
            exact ⟨hPasses, Bool.not_eq_true _ ▸ hConnected, entries, handle, address, mid, rfl,
              hRun, rfl⟩
          · rintro ⟨-, -, entries', handle', address', mid', hSame, hRun', rfl⟩
            obtain rfl := Option.some.inj hSame
            obtain ⟨hOpened, rfl⟩ := EStateM.Result.ok.inj (hRun.symm.trans hRun')
            obtain ⟨rfl, rfl⟩ := Prod.mk.inj (Option.some.inj hOpened)
            rfl

theorem resolution_of_join (h : (afterCheck host l.network.lookups).head?.join = some entries) :
    resolution host l.network.lookups = entries := by
  unfold resolution
  rw [h]
  rfl

/-- A `Connect` that returns has connected to an address of its own resolution. -/
theorem peer_of_connect (h : connect host l = .ok () next) :
    ∃ address ∈ resolution host l.network.lookups, next.peer = some address := by
  obtain ⟨-, -, entries, handle, address, mid, hLookup, hOpen, rfl⟩ := connect_eq_ok_iff.mp h
  obtain ⟨opened, mid', hRun, -, hMem⟩ := openSocket_eq entries
    (l.withLookups (afterCheck host l.network.lookups).tail)
  rw [hOpen] at hRun
  obtain ⟨rfl, -⟩ := EStateM.Result.ok.inj hRun
  rw [resolution_of_join hLookup]
  exact ⟨address, hMem handle address rfl, rfl⟩

/-- Any address of the resolution can be the one. -/
theorem connect_reaches (hClosed : l.connection.connected = false)
    (hPasses : Passes host l.network.lookups) {entry : SockAddr}
    (hEntry : entry ∈ resolution host l.network.lookups) :
    ∃ sockets connects next, connect host (l.answering sockets connects) = .ok () next ∧
      next.peer = some entry := by
  cases hLookup : (afterCheck host l.network.lookups).head?.join with
  | none =>
    unfold resolution at hEntry
    rw [hLookup] at hEntry
    exact absurd hEntry List.not_mem_nil
  | some entries =>
    rw [resolution_of_join hLookup] at hEntry
    obtain ⟨front, back, rfl⟩ := List.append_of_mem hEntry
    obtain ⟨mid, hOpen, -⟩ := openSocket_reaches entry back front
      (l.withLookups (afterCheck host l.network.lookups).tail)
    exact ⟨List.replicate (front.length + 1) (some 1), List.replicate front.length false ++ [true],
      mid.established 1 entry,
      connect_eq_ok_iff.mpr ⟨hPasses, hClosed, _, 1, entry, mid, hLookup, hOpen, rfl⟩, rfl⟩

/-- Whatever the sockets do, a `Connect` that returns has connected to a loopback address,
exactly when the connection is open already, the check does not pass, or all addresses of
the resolution that `Connect` makes are loopback addresses. -/
theorem connect_loopback_iff (host : String) (l : Link) :
    (∀ sockets connects next, connect host (l.answering sockets connects) = .ok () next →
      ∃ address, next.peer = some address ∧ address.Loopback) ↔
    (l.connection.connected = true ∨ ¬Passes host l.network.lookups ∨
      ∀ entry ∈ resolution host l.network.lookups, entry.Loopback) := by
  constructor
  · intro hAll
    by_cases hOpen : l.connection.connected = true
    · exact .inl hOpen
    · refine .inr (or_iff_not_imp_left.mpr fun hPasses entry hEntry => ?_)
      obtain ⟨sockets, connects, next, hConnect, hPeer⟩ :=
        connect_reaches (Bool.not_eq_true _ ▸ hOpen) (not_not.mp hPasses) hEntry
      obtain ⟨address, hSome, hLoopback⟩ := hAll sockets connects next hConnect
      rw [hPeer] at hSome
      exact Option.some.inj hSome ▸ hLoopback
  · intro hCondition sockets connects next hConnect
    obtain ⟨hPasses, hClosed, -⟩ := connect_eq_ok_iff.mp hConnect
    obtain ⟨address, hMem, hPeer⟩ := peer_of_connect hConnect
    refine ⟨address, hPeer, ?_⟩
    rcases hCondition with hOpen | hRefused | hLoopback
    · exact absurd (hClosed.symm.trans hOpen) Bool.false_ne_true
    · exact absurd hPasses hRefused
    · exact hLoopback address hMem

/-- A name for a public and a loopback address, where the public one accepts. -/
def mixedLink : Link where
  network :=
    { lookups := List.replicate 2 (some [.inet 0x08080808, .inet 0x7f000001])
      sockets := [some 1]
      connects := [true] }

theorem connect_mixedLink : ∃ next, connect "mixed.example" mixedLink = .ok () next ∧
    ∃ address, next.peer = some address ∧ ¬address.Loopback :=
  ⟨_, rfl, .inet 0x08080808, rfl, by decide⟩

end Link

end Ithax.Network

import EchoNet.Gateway.Registry
import EchoNet.Lib.ExpiringStore
import EchoNet.Lib.Machine

/-!
# Discovery by Registrations that Expire

The chat services and the gateway find each other through Redis.  A chat service sets its key for
10 seconds when it starts (`registerToRedis` of src/src/ChatService/ChatService.cpp) and again every
3 seconds (`heartbeatLoop`); nothing ever deletes the key.  The gateway lists the keys and then reads
them one by one (`ServiceRegistry::Refresh`), while keys come, are set again and expire.

- Time is in milliseconds, that of Redis.
- Only the keys of the service are modelled; the `KEYS` pattern selects them.
- `log`, `begun` and `refreshed` are history: the registrations, and the times of the `KEYS` of the
  running refresh and of the last one that got through.

## Main results

- `discovery_sound`: no refresh throws, and an instance of the snapshot is one that has registered
  less than 10 seconds before the `KEYS`, under its own address;
- `discovery_complete`: a service that is never more than 10 seconds from its last registration
  during a refresh is in the snapshot.
-/

namespace EchoNet.Gateway

open EchoNet.Lib

open EchoNet.RateLimit (cStr cStr_eq_self)

/-! ## §1 What a service registers -/

/-- `service_name_`, of the services and of the gateway's registry. -/
def chatService : Bytes := ascii "chat_service"

/-- `instance_id_`. -/
def instanceId (port : UInt16) : Bytes := ascii "node-" ++ toDecimal port.toNat

/-- `key` of `registerToRedis`. -/
def registryKey (port : UInt16) : Bytes := ServiceRegistry.keyPrefix chatService ++ instanceId port

/-- `host_`. -/
def registryHost : Bytes := ascii "127.0.0.1"

/-- `value` of `registerToRedis`. -/
def registryValue (port : UInt16) : Bytes := registryHost ++ ascii ":" ++ toDecimal port.toNat

/-- What a refresh makes of the key and the value. -/
def instanceOf (port : UInt16) : ServiceInstance :=
  ⟨chatService, instanceId port, registryHost, port⟩

theorem address_instanceOf (port : UInt16) : (instanceOf port).address = registryValue port := rfl

theorem toDecimal_injective {a b : UInt16} (h : toDecimal a.toNat = toDecimal b.toNat) : a = b := by
  have hvalue := congrArg decimalValue h
  rw [decimalValue_toDecimal, decimalValue_toDecimal] at hvalue
  exact UInt16.toNat_inj.mp hvalue

/-- The key determines the service. -/
theorem registryKey_injective {a b : UInt16} (h : registryKey a = registryKey b) : a = b := by
  rw [registryKey, registryKey, instanceId, instanceId] at h
  exact toDecimal_injective (List.append_cancel_left (List.append_cancel_left h))

theorem instanceId_injective {a b : UInt16} (h : instanceId a = instanceId b) : a = b :=
  toDecimal_injective (List.append_cancel_left h)

theorem zero_notMem_decimal (n : Nat) : 0 ∉ toDecimal n :=
  ServiceRegistry.zero_notMem_of_isDigit fun _ => isDigit_of_mem_toDecimal

theorem zero_notMem_registryKey (port : UInt16) : 0 ∉ registryKey port := by
  simp only [registryKey, instanceId, List.mem_append, not_or]
  exact ⟨by decide, by decide, zero_notMem_decimal _⟩

theorem zero_notMem_registryValue (port : UInt16) : 0 ∉ registryValue port := by
  simp only [registryValue, List.mem_append, not_or]
  exact ⟨⟨by decide, by decide⟩, zero_notMem_decimal _⟩

/-- A refresh reads back what a service has registered. -/
theorem readEntry_registered (port : UInt16) :
    ServiceRegistry.readEntry chatService ⟨registryKey port, .string (registryValue port)⟩ =
      some (some (instanceOf port)) := by
  have hsplit : splitFirst 0x3A (cStr (registryValue port)) =
      some (registryHost, toDecimal port.toNat) := by
    rw [cStr_eq_self (zero_notMem_registryValue port), registryValue, List.append_assoc]
    exact splitFirst_append (by decide) _
  have hrange : decimalValue (toDecimal port.toNat) ≤ 65535 := by
    rw [decimalValue_toDecimal]
    have hlt := port.toNat_lt
    omega
  have hstoi := ServiceRegistry.stoi_of_isDigit (toDecimal_ne_nil port.toNat)
    (fun _ => isDigit_of_mem_toDecimal) hrange
  rw [ServiceRegistry.readEntry_of_string (by decide) (List.prefix_append _ _) rfl hsplit, hstoi,
    decimalValue_toDecimal, Option.map_some, cStr_eq_self (zero_notMem_registryKey port)]
  have hport : UInt16.ofInt (port.toNat : Int) = port := by
    rw [UInt16.ofInt]
    apply UInt16.toNat_inj.mp
    rw [UInt16.toNat_ofNat']
    have hlt := port.toNat_lt
    omega
  rw [hport, registryKey, List.drop_left, instanceOf]

/-- A key whose value could not be read adds nothing. -/
theorem readEntry_gone {port : UInt16} {val : GetReply} (h : ∀ str, val ≠ .string str) :
    ServiceRegistry.readEntry chatService ⟨registryKey port, val⟩ = some none := by
  refine ServiceRegistry.readEntry_skip (by decide) (List.prefix_append _ _) fun str hval => ?_
  exact absurd hval (h str)

/-! ## §2 The services, Redis and the refreshes -/

/-- A registration that Redis has taken. -/
structure Registration where
  port : UInt16
  time : Nat
  deriving DecidableEq, Repr

/-- The program counter of `Refresh`. -/
inductive RefreshPc where
  | idle
  /-- after `KEYS`, with the keys that are still to be read, and what has been read -/
  | reading (todo : List Bytes) (element : List RegistryEntry)
  /-- an exception has left the thread -/
  | terminated
  deriving DecidableEq, Repr

structure Discovery where
  clock : Nat
  /-- the ports of the chat services that run -/
  running : List UInt16
  redis : ExpiringStore Bytes Bytes
  registry : ServiceRegistry
  pc : RefreshPc
  log : List Registration
  begun : Nat
  refreshed : Nat

namespace Discovery

def init : Discovery where
  clock := 0
  running := []
  redis := ∅
  registry := ⟨chatService, []⟩
  pc := .idle
  log := []
  begun := 0
  refreshed := 0

inductive Act where
  /-- a chat service starts, or is gone, by a crash or not -/
  | start (port : UInt16)
  | stop (i : Nat)
  /-- `registerToRedis` of a service, if it gets through -/
  | register (i : Nat)
  | tick (elapsed : Nat)
  /-- `KEYS`, in an order of Redis's; or Redis is not available -/
  | keys (order : List Bytes)
  | keysFailed
  /-- `GET` of the next key; or there is no reply -/
  | get
  | getFailed
  /-- the values are parsed and the snapshot is replaced -/
  | swap
  deriving DecidableEq, Repr

/-- The reply to a `GET`. -/
def reply (w : Discovery) (key : Bytes) : GetReply :=
  match w.redis.get w.clock key with
  | some value => .string value
  | none => .other

/-- `SET key value EX 10`. -/
def registerToRedis (w : Discovery) (port : UInt16) : Discovery :=
  { w with
    redis := w.redis.set w.clock 10000 (registryKey port) (registryValue port)
    log := w.log ++ [⟨port, w.clock⟩] }

def step (w : Discovery) : Act → Option Discovery
  | .start port => some { w with running := w.running ++ [port] }
  | .stop i => if i < w.running.length then some { w with running := w.running.eraseIdx i } else none
  | .register i => w.running[i]?.map w.registerToRedis
  | .tick elapsed => some { w with clock := w.clock + elapsed }
  | .keys order =>
    match w.pc with
    | .idle =>
      if order.Perm (w.redis.liveKeys w.clock) then
        some { w with pc := .reading order [], begun := w.clock }
      else none
    | _ => none
  | .keysFailed =>
    match w.pc with
    | .idle => some w
    | _ => none
  | .get =>
    match w.pc with
    | .reading (key :: todo) element =>
      some { w with pc := .reading todo (element ++ [⟨key, w.reply key⟩]) }
    | _ => none
  | .getFailed =>
    match w.pc with
    | .reading (key :: todo) element =>
      some { w with pc := .reading todo (element ++ [⟨key, .null⟩]) }
    | _ => none
  | .swap =>
    match w.pc with
    | .reading [] element =>
      match w.registry.refresh (some (.array element)) with
      | some registry => some { w with registry := registry, pc := .idle, refreshed := w.begun }
      | none => some { w with pc := .terminated }
    | _ => none

/-! ## §3 The invariant -/

/-- What a refresh has read of a service: nothing, or what it registered less than 10 seconds
before `since`. -/
def EntryOk (log : List Registration) (since : Nat) (e : RegistryEntry) : Prop :=
  ∃ port, e.key = registryKey port ∧ ∀ str, e.val = .string str →
    str = registryValue port ∧ ∃ r ∈ log, r.port = port ∧ since < r.time + 10000

/-- A refresh that is under way since `begun`. -/
structure Reading (clock begun : Nat) (log : List Registration) (todo : List Bytes)
    (element : List RegistryEntry) : Prop where
  past : begun ≤ clock
  keys : ∀ key ∈ todo, ∃ port, key = registryKey port
  entries : ∀ e ∈ element, EntryOk log begun e
  nodup : (element.map RegistryEntry.key ++ todo).Nodup

/-- Redis has the last registration of each service. -/
structure Stored (clock : Nat) (redis : ExpiringStore Bytes Bytes) (log : List Registration) :
    Prop where
  past : ∀ r ∈ log, r.time ≤ clock
  entry : ∀ key e, redis.lookup key = some e → ∃ r ∈ log, key = registryKey r.port ∧
    e.value = registryValue r.port ∧ e.expires = r.time + 10000
  latest : ∀ r ∈ log, ∃ e, redis.lookup (registryKey r.port) = some e ∧
    r.time + 10000 ≤ e.expires

/-- The snapshot of the gateway, from a refresh since `refreshed`. -/
structure Snapshot (registry : ServiceRegistry) (refreshed : Nat) (log : List Registration) :
    Prop where
  name : registry.serviceName = chatService
  registered : ∀ inst ∈ registry.instances,
    ∃ r ∈ log, inst = instanceOf r.port ∧ refreshed < r.time + 10000
  distinct : (registry.instances.map ServiceInstance.instanceId).Nodup

structure Inv (w : Discovery) : Prop where
  stored : Stored w.clock w.redis w.log
  reading : ∀ todo element, w.pc = .reading todo element →
    Reading w.clock w.begun w.log todo element
  running : w.pc ≠ .terminated
  snapshot : Snapshot w.registry w.refreshed w.log

theorem Inv.init : Inv init where
  stored := ⟨nofun, nofun, nofun⟩
  reading := nofun
  running := nofun
  snapshot := ⟨rfl, nofun, List.nodup_nil⟩

/-- A service registers: its key has the new time, the others keep theirs. -/
theorem Stored.register {clock : Nat} {redis : ExpiringStore Bytes Bytes}
    {log : List Registration} (h : Stored clock redis log) (port : UInt16) :
    Stored clock (redis.set clock 10000 (registryKey port) (registryValue port))
      (log ++ [⟨port, clock⟩]) := by
  refine ⟨fun r hr => ?_, fun key e he => ?_, fun r hr => ?_⟩
  · rcases List.mem_append.mp hr with hr | hr
    · exact h.past r hr
    · rw [List.mem_singleton.mp hr]
  · by_cases hkey : key = registryKey port
    · subst hkey
      rw [ExpiringStore.lookup_set, Option.some.injEq] at he
      subst he
      exact ⟨⟨port, clock⟩, List.mem_append_right _ (List.mem_singleton_self _), rfl, rfl, rfl⟩
    · rw [ExpiringStore.lookup_set_of_ne hkey] at he
      obtain ⟨r, hr, hrest⟩ := h.entry key e he
      exact ⟨r, List.mem_append_left _ hr, hrest⟩
  · by_cases hport : r.port = port
    · refine ⟨⟨registryValue port, clock + 10000⟩, ?_, ?_⟩
      · rw [hport]
        exact ExpiringStore.lookup_set
      · have hpast : r.time ≤ clock := by
          rcases List.mem_append.mp hr with hr | hr
          · exact h.past r hr
          · rw [List.mem_singleton.mp hr]
        exact Nat.add_le_add_right hpast _
    · have hold : r ∈ log := by
        rcases List.mem_append.mp hr with hr | hr
        · exact hr
        · exact absurd (congrArg Registration.port (List.mem_singleton.mp hr)) hport
      obtain ⟨e, he, hle⟩ := h.latest r hold
      refine ⟨e, ?_, hle⟩
      have hne : registryKey r.port ≠ registryKey port := fun heq =>
        hport (registryKey_injective heq)
      exact (ExpiringStore.lookup_set_of_ne hne).trans he

/-- A value that Redis has is the one its service registered in the last 10 seconds. -/
theorem Stored.of_get {clock : Nat} {redis : ExpiringStore Bytes Bytes} {log : List Registration}
    (h : Stored clock redis log) {key value : Bytes} (hget : redis.get clock key = some value) :
    ∃ r ∈ log, key = registryKey r.port ∧ value = registryValue r.port ∧
      clock < r.time + 10000 := by
  obtain ⟨e, he, hexpires, rfl⟩ := ExpiringStore.get_eq_some.mp hget
  obtain ⟨r, hr, hkey, hvalue, htime⟩ := h.entry key e he
  exact ⟨r, hr, hkey, hvalue, htime ▸ hexpires⟩

/-- The next key is read. -/
theorem Reading.next {clock begun : Nat} {log : List Registration} {key : Bytes}
    {todo : List Bytes} {element : List RegistryEntry}
    (h : Reading clock begun log (key :: todo) element) {val : GetReply}
    (hval : ∀ str, val = .string str → ∃ r ∈ log, key = registryKey r.port ∧
      str = registryValue r.port ∧ clock < r.time + 10000) :
    Reading clock begun log todo (element ++ [⟨key, val⟩]) := by
  refine ⟨h.past, fun k hk => h.keys k (List.mem_cons_of_mem _ hk), fun e he => ?_, ?_⟩
  · rcases List.mem_append.mp he with he | he
    · exact h.entries e he
    · rw [List.mem_singleton.mp he]
      obtain ⟨port, hkey⟩ := h.keys key List.mem_cons_self
      refine ⟨port, hkey, fun str hstr => ?_⟩
      obtain ⟨r, hr, hkey', hstr', htime⟩ := hval str hstr
      have hport : r.port = port := registryKey_injective (hkey'.symm.trans hkey)
      exact ⟨hport ▸ hstr', r, hr, hport, Nat.lt_of_le_of_lt h.past htime⟩
  · rw [List.map_append, List.append_assoc]
    exact h.nodup

/-- What the entries of a refresh say. -/
theorem readEntry_of_entryOk {log : List Registration} {since : Nat} {e : RegistryEntry}
    (h : EntryOk log since e) :
    ServiceRegistry.readEntry chatService e = some none ∨
      ∃ r ∈ log, ServiceRegistry.readEntry chatService e = some (some (instanceOf r.port)) ∧
        e.key = registryKey r.port ∧ since < r.time + 10000 := by
  obtain ⟨key, val⟩ := e
  obtain ⟨port, hkey, hval⟩ := h
  obtain rfl : key = registryKey port := hkey
  cases val with
  | string str =>
    obtain ⟨rfl, r, hr, rfl, htime⟩ := hval str rfl
    exact Or.inr ⟨r, hr, readEntry_registered r.port, rfl, htime⟩
  | null => exact Or.inl (readEntry_gone nofun)
  | other => exact Or.inl (readEntry_gone nofun)

/-- The instances of a refresh come from the entries, each from its own. -/
theorem readEntries_of_entryOk {log : List Registration} {since : Nat}
    {element : List RegistryEntry} (h : ∀ e ∈ element, EntryOk log since e)
    (hnodup : (element.map RegistryEntry.key).Nodup) :
    ∃ insts, ServiceRegistry.readEntries chatService element = some insts ∧
      (∀ inst ∈ insts, ∃ r ∈ log, inst = instanceOf r.port ∧ since < r.time + 10000 ∧
        registryKey r.port ∈ element.map RegistryEntry.key) ∧
      (insts.map ServiceInstance.instanceId).Nodup := by
  induction element with
  | nil => exact ⟨[], rfl, nofun, List.nodup_nil⟩
  | cons e element ih =>
    obtain ⟨hnot, hrest⟩ := List.nodup_cons.mp hnodup
    obtain ⟨insts, hread, hinsts, hids⟩ := ih (fun x hx => h x (List.mem_cons_of_mem _ hx)) hrest
    have hkept : ∀ inst ∈ insts, ∃ r ∈ log, inst = instanceOf r.port ∧ since < r.time + 10000 ∧
        registryKey r.port ∈ (e :: element).map RegistryEntry.key := by
      intro inst hinst
      obtain ⟨r, hr, heq, htime, hkey⟩ := hinsts inst hinst
      exact ⟨r, hr, heq, htime, List.mem_cons_of_mem _ hkey⟩
    rcases readEntry_of_entryOk (h e List.mem_cons_self) with hskip | ⟨r, hr, hfound, hkey, htime⟩
    · refine ⟨insts, ?_, hkept, hids⟩
      rw [ServiceRegistry.readEntries, hskip]
      exact hread
    · refine ⟨instanceOf r.port :: insts, ?_, fun inst hinst => ?_, ?_⟩
      · rw [ServiceRegistry.readEntries, hfound, hread]
        rfl
      · rcases List.mem_cons.mp hinst with rfl | hinst
        · exact ⟨r, hr, rfl, htime, hkey ▸ List.mem_cons_self⟩
        · exact hkept inst hinst
      · -- another instance with the same id would have the same key
        refine List.nodup_cons.mpr ⟨fun hmem => ?_, hids⟩
        obtain ⟨inst, hinst, hid⟩ := List.mem_map.mp hmem
        obtain ⟨r', -, rfl, -, hkey'⟩ := hinsts inst hinst
        have hport : r'.port = r.port := instanceId_injective hid
        rw [hport, ← hkey] at hkey'
        exact hnot hkey'

/-! ## §4 The steps -/

/-- A step that leaves the registry and a running refresh alone. -/
theorem Inv.quiet {w w' : Discovery} (hi : Inv w) (hstored : Stored w'.clock w'.redis w'.log)
    (hclock : w.clock ≤ w'.clock) (hlog : w.log <+: w'.log) (hregistry : w'.registry = w.registry)
    (hpc : w'.pc = w.pc) (hbegun : w'.begun = w.begun) (hrefreshed : w'.refreshed = w.refreshed) :
    Inv w' := by
  have hmem : ∀ {r}, r ∈ w.log → r ∈ w'.log := fun hr => hlog.subset hr
  refine ⟨hstored, fun todo element h => ?_, hpc ▸ hi.running, ?_⟩
  · have hreading := hi.reading todo element (hpc ▸ h)
    refine ⟨?_, hreading.keys, fun e he => ?_, hreading.nodup⟩
    · rw [hbegun]
      exact Nat.le_trans hreading.past hclock
    · obtain ⟨port, hkey, hval⟩ := hreading.entries e he
      refine ⟨port, hkey, fun str hstr => ?_⟩
      obtain ⟨hvalue, r, hr, hport, htime⟩ := hval str hstr
      exact ⟨hvalue, r, hmem hr, hport, hbegun ▸ htime⟩
  · refine ⟨hregistry ▸ hi.snapshot.name, fun inst hinst => ?_, hregistry ▸ hi.snapshot.distinct⟩
    obtain ⟨r, hr, heq, htime⟩ := hi.snapshot.registered inst (hregistry ▸ hinst)
    exact ⟨r, hmem hr, heq, hrefreshed ▸ htime⟩

/-- `KEYS` lists the keys of services. -/
theorem Inv.keys {w : Discovery} (hi : Inv w) {order : List Bytes}
    (horder : order.Perm (w.redis.liveKeys w.clock)) :
    Inv { w with pc := .reading order [], begun := w.clock } := by
  refine ⟨hi.stored, fun todo element h => ?_, nofun, hi.snapshot⟩
  cases h
  refine ⟨Nat.le_refl _, fun key hkey => ?_, nofun, ?_⟩
  · obtain ⟨value, hvalue⟩ := ExpiringStore.mem_liveKeys.mp (horder.mem_iff.mp hkey)
    obtain ⟨r, -, hkey', -⟩ := hi.stored.of_get hvalue
    exact ⟨r.port, hkey'⟩
  · exact horder.nodup_iff.mpr ExpiringStore.nodup_liveKeys

/-- A refresh gets through, with what it has read. -/
theorem exists_refresh {w : Discovery} (hi : Inv w) {element : List RegistryEntry}
    (hpc : w.pc = .reading [] element) :
    ∃ registry, w.registry.refresh (some (.array element)) = some registry ∧
      Inv { w with registry := registry, pc := .idle, refreshed := w.begun } := by
  have hreading := hi.reading [] element hpc
  have hnodup := hreading.nodup
  rw [List.append_nil] at hnodup
  obtain ⟨insts, hread, hinsts, hids⟩ := readEntries_of_entryOk hreading.entries hnodup
  refine ⟨⟨w.registry.serviceName, insts⟩, ?_, hi.stored, nofun, nofun,
    hi.snapshot.name, fun inst hinst => ?_, hids⟩
  · rw [ServiceRegistry.refresh, hi.snapshot.name, hread, Option.map_some, ← hi.snapshot.name]
  · obtain ⟨r, hr, heq, htime, -⟩ := hinsts inst hinst
    exact ⟨r, hr, heq, htime⟩

theorem Inv.step {w w' : Discovery} {a : Act} (hi : Inv w) (h : w.step a = some w') : Inv w' := by
  cases a with
  | start port =>
    cases h
    exact hi.quiet hi.stored (Nat.le_refl _) (List.prefix_refl _) rfl rfl rfl rfl
  | stop i =>
    simp only [Discovery.step] at h
    split_ifs at h
    cases h
    exact hi.quiet hi.stored (Nat.le_refl _) (List.prefix_refl _) rfl rfl rfl rfl
  | register i =>
    obtain ⟨port, -, rfl⟩ := Option.map_eq_some_iff.mp h
    exact hi.quiet (hi.stored.register port) (Nat.le_refl _) (List.prefix_append _ _) rfl rfl rfl
      rfl
  | tick elapsed =>
    cases h
    have hle : w.clock ≤ w.clock + elapsed := Nat.le_add_right _ _
    exact hi.quiet ⟨fun r hr => Nat.le_trans (hi.stored.past r hr) hle, hi.stored.entry,
      hi.stored.latest⟩ hle (List.prefix_refl _) rfl rfl rfl rfl
  | keys order =>
    simp only [Discovery.step] at h
    split at h
    · split_ifs at h with horder
      cases h
      exact hi.keys horder
    · cases h
  | keysFailed =>
    simp only [Discovery.step] at h
    split at h
    · cases h
      exact hi
    · cases h
  | get =>
    simp only [Discovery.step] at h
    split at h
    · rename_i key todo element hpc
      cases h
      refine ⟨hi.stored, fun todo' element' h' => ?_, nofun, hi.snapshot⟩
      cases h'
      refine (hi.reading _ _ hpc).next fun str hstr => ?_
      unfold reply at hstr
      split at hstr
      · rename_i value hget
        cases hstr
        exact hi.stored.of_get hget
      · cases hstr
    · cases h
  | getFailed =>
    simp only [Discovery.step] at h
    split at h
    · rename_i key todo element hpc
      cases h
      refine ⟨hi.stored, fun todo' element' h' => ?_, nofun, hi.snapshot⟩
      cases h'
      exact (hi.reading _ _ hpc).next nofun
    · cases h
  | swap =>
    simp only [Discovery.step] at h
    split at h
    · rename_i element hpc
      obtain ⟨registry, hrefresh, hi'⟩ := exists_refresh hi hpc
      rw [hrefresh] at h
      cases h
      exact hi'
    · cases h

theorem run_inv {acts : List Act} {w : Discovery} (hrun : run Discovery.step .init acts = some w) :
    Inv w :=
  run_invariant (fun _ _ _ hi hstep => hi.step hstep) .init hrun

/-- In every run no refresh throws, and every instance of the snapshot is a service that has
registered less than 10 seconds before the `KEYS` of the last refresh that got through, with the
address it registered; no service is in the snapshot twice. -/
theorem discovery_sound (acts : List Act) (w : Discovery)
    (hrun : run Discovery.step .init acts = some w) :
    w.pc ≠ .terminated ∧
      (∀ inst ∈ w.registry.instances, ∃ r ∈ w.log, w.refreshed < r.time + 10000 ∧
        inst.instanceId = instanceId r.port ∧ inst.address = registryValue r.port) ∧
      (w.registry.instances.map ServiceInstance.instanceId).Nodup := by
  have hi := run_inv hrun
  refine ⟨hi.running, fun inst hinst => ?_, hi.snapshot.distinct⟩
  obtain ⟨r, hr, rfl, htime⟩ := hi.snapshot.registered inst hinst
  exact ⟨r, hr, htime, rfl, address_instanceOf r.port⟩

/-- Two services, one of which crashes; after 11 seconds a refresh finds the other one. -/
def oneCrashes : List Act :=
  [.start 9001, .register 0, .start 9002, .register 1,
    .keys [registryKey 9002, registryKey 9001], .get, .get, .swap, .stop 1, .tick 8000, .register 0,
    .tick 3000, .keys [registryKey 9001], .get, .swap]

theorem discovery_sound_crash :
    ∃ w, run Discovery.step .init oneCrashes = some w ∧
      w.registry.instances = [instanceOf 9001] ∧ w.refreshed = 11000 ∧
      ∀ inst ∈ w.registry.instances, ∃ r ∈ w.log, w.refreshed < r.time + 10000 ∧
        inst.instanceId = instanceId r.port ∧ inst.address = registryValue r.port := by
  have hlast : ((run Discovery.step .init oneCrashes).any fun w =>
      decide (w.registry.instances = [instanceOf 9001] ∧ w.refreshed = 11000)) = true := by
    decide +kernel
  obtain ⟨w, hw, hlast⟩ := exists_of_run_any hlast
  obtain ⟨hinstances, hrefreshed⟩ := of_decide_eq_true hlast
  exact ⟨w, hw, hinstances, hrefreshed, (discovery_sound oneCrashes w hw).2.1⟩

/-! ## §5 Services that stay in touch -/

/-- The last registration of the service is less than 10 seconds old. -/
def InTouch (port : UInt16) (w : Discovery) : Prop :=
  ∃ r ∈ w.log, r.port = port ∧ w.clock < r.time + 10000

instance (port : UInt16) (w : Discovery) : Decidable (InTouch port w) :=
  inferInstanceAs (Decidable (∃ r ∈ w.log, r.port = port ∧ w.clock < r.time + 10000))

/-- A step of a refresh that is under way, or of anybody else. -/
def ofOneRefresh : Act → Bool
  | .getFailed | .swap => false
  | _ => true

/-- Redis has the key of a service that is in touch. -/
theorem get_of_inTouch {w : Discovery} (hi : Inv w) {port : UInt16} (h : InTouch port w) :
    w.redis.get w.clock (registryKey port) = some (registryValue port) := by
  obtain ⟨r, hr, rfl, htime⟩ := h
  obtain ⟨e, he, hle⟩ := hi.stored.latest r hr
  obtain ⟨r', -, hkey, hvalue, -⟩ := hi.stored.entry _ e he
  refine ExpiringStore.get_eq_some.mpr ⟨e, he, Nat.lt_of_lt_of_le htime hle, ?_⟩
  rw [hvalue, registryKey_injective hkey]

/-- The refresh has the service before it, or has read its value. -/
def Finds (port : UInt16) (w : Discovery) : Prop :=
  ∃ todo element, w.pc = .reading todo element ∧
    (registryKey port ∈ todo ∨ ⟨registryKey port, .string (registryValue port)⟩ ∈ element)

theorem Finds.step {w w' : Discovery} {a : Act} {port : UInt16} (hi : Inv w)
    (hfinds : Finds port w) (ha : ofOneRefresh a = true) (htouch : InTouch port w)
    (h : w.step a = some w') : Finds port w' := by
  obtain ⟨todo, element, hpc, hplace⟩ := hfinds
  have hquiet : ∀ {u : Discovery}, u.pc = w.pc → Finds port u := fun hsame =>
    ⟨todo, element, hsame.trans hpc, hplace⟩
  cases a with
  | start port' | tick elapsed =>
    cases h
    exact hquiet rfl
  | stop i =>
    simp only [Discovery.step] at h
    split_ifs at h
    cases h
    exact hquiet rfl
  | register i =>
    obtain ⟨port', -, rfl⟩ := Option.map_eq_some_iff.mp h
    exact hquiet rfl
  | keys order | keysFailed =>
    simp only [Discovery.step, hpc] at h
    cases h
  | getFailed | swap => cases ha
  | get =>
    simp only [Discovery.step, hpc] at h
    cases todo with
    | nil => cases h
    | cons key todo =>
      cases h
      refine ⟨todo, _, rfl, ?_⟩
      rcases hplace with hmem | hmem
      · rcases List.mem_cons.mp hmem with rfl | hmem
        · -- its turn: the key is still there
          right
          have hreply : w.reply (registryKey port) = .string (registryValue port) := by
            rw [reply, get_of_inTouch hi htouch]
          rw [hreply]
          exact List.mem_append_right _ (List.mem_singleton_self _)
        · exact Or.inl hmem
      · exact Or.inr (List.mem_append_left _ hmem)

/-- A service that is in touch from the `KEYS` of a refresh to its end is in the snapshot, if each
`GET` of the refresh has a reply. -/
theorem discovery_complete (before refresh : List Act) (order : List Bytes) (port : UInt16)
    (w₁ w₂ : Discovery) (h₁ : run Discovery.step .init before = some w₁)
    (h₂ : run Discovery.step w₁ (.keys order :: (refresh ++ [.swap])) = some w₂)
    (hacts : refresh.all ofOneRefresh = true)
    (htouch : Meets Discovery.step (fun w _ => InTouch port w) w₁ (.keys order :: refresh)) :
    instanceOf port ∈ w₂.registry.instances := by
  obtain ⟨hfirst, hrest⟩ := htouch
  obtain ⟨u, hkeys, hrun⟩ := run_cons_eq_some.mp h₂
  obtain ⟨v, hv, hswap⟩ := run_append.mp hrun
  have hi₁ := run_inv h₁
  -- the key is listed
  have hfinds : Finds port u := by
    simp only [Discovery.step] at hkeys
    split at hkeys
    · split_ifs at hkeys with horder
      cases hkeys
      refine ⟨order, [], rfl, Or.inl (horder.mem_iff.mpr ?_)⟩
      exact ExpiringStore.mem_liveKeys.mpr ⟨_, get_of_inTouch hi₁ hfirst⟩
    · cases hkeys
  -- and stays so, until it is read
  have hkinds : Meets Discovery.step (fun _ a => ofOneRefresh a = true) u refresh :=
    meets_of_forall (fun a ha _ => List.all_eq_true.mp hacts a ha) u
  have hall := (hrest u hkeys).and hkinds
  obtain ⟨hi, hfound⟩ : Inv v ∧ Finds port v := by
    refine run_invariant_of_meets (P := fun w => Inv w ∧ Finds port w) (fun s a t hs hG hstep => ?_)
      ⟨hi₁.step hkeys, hfinds⟩ hall hv
    exact ⟨hs.1.step hstep, hs.2.step hs.1 hG.2 hG.1 hstep⟩
  obtain ⟨w, hw, hlast⟩ := run_cons_eq_some.mp hswap
  cases hlast
  obtain ⟨todo, element, hpc, hplace⟩ := hfound
  simp only [Discovery.step, hpc] at hw
  cases todo with
  | cons key todo => cases hw
  | nil =>
    obtain ⟨registry, hrefresh, -⟩ := exists_refresh hi hpc
    dsimp only at hw
    rw [hrefresh] at hw
    cases hw
    obtain ⟨insts, hread, rfl⟩ := Option.map_eq_some_iff.mp hrefresh
    rw [hi.snapshot.name] at hread
    obtain ⟨-, rfl⟩ := ServiceRegistry.readEntries_eq_some.mp hread
    have hentry : ⟨registryKey port, .string (registryValue port)⟩ ∈ element :=
      hplace.resolve_left List.not_mem_nil
    refine List.mem_filterMap.mpr ⟨_, hentry, ?_⟩
    rw [readEntry_registered]
    rfl

/-- Two services, one of which registers again while the keys are read, and a third that starts
too late to be listed. -/
def twoStay : List Act := [.start 9001, .register 0, .start 9002, .register 1, .tick 9999]

theorem discovery_complete_two :
    ∃ w₁ w₂, run Discovery.step .init twoStay = some w₁ ∧
      run Discovery.step w₁ (.keys [registryKey 9002, registryKey 9001] ::
        ([.get, .start 9003, .register 2, .register 0, .tick 5, .get] ++ [.swap])) = some w₂ ∧
      w₂.clock = 10004 ∧ instanceOf 9001 ∈ w₂.registry.instances := by
  have hall : ((run Discovery.step .init twoStay).any fun w₁ =>
      decide (Meets Discovery.step (fun w _ => InTouch 9001 w) w₁
        (.keys [registryKey 9002, registryKey 9001] ::
          [.get, .start 9003, .register 2, .register 0, .tick 5, .get])) &&
      (run Discovery.step w₁ (.keys [registryKey 9002, registryKey 9001] ::
        ([.get, .start 9003, .register 2, .register 0, .tick 5, .get] ++ [.swap]))).any fun w₂ =>
          decide (w₂.clock = 10004)) = true := by
    decide +kernel
  obtain ⟨w₁, h₁, hrest⟩ := exists_of_run_any hall
  obtain ⟨htouch, hrest⟩ := Bool.and_eq_true_iff.mp hrest
  obtain ⟨w₂, h₂, hclock⟩ := exists_of_run_any hrest
  exact ⟨w₁, w₂, h₁, h₂, of_decide_eq_true hclock, discovery_complete twoStay _ _ 9001 w₁ w₂ h₁ h₂
    (by decide) (of_decide_eq_true htouch)⟩

end Discovery

end EchoNet.Gateway

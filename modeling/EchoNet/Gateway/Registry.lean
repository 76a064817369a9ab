import EchoNet.RateLimit.RedisTokenBucket
import Mathlib.Data.List.Basic

/-!
# Service Discovery

`ServiceRegistry::Refresh` of src/src/Gateway/ServiceRegistry.cpp: a `KEYS`, a `GET` for each key
of the reply, and the instances that the values name.  A value is split at its first `:`, and what
is behind it goes to `std::stoi` as it is; nothing catches what `stoi` throws.

Whether a refresh does its work is decided value by value: `refresh_reads_iff`.
-/

namespace EchoNet.Gateway

open EchoNet.Lib
open EchoNet.RateLimit (cStr cStr_append_of_notMem cStr_append_zero cStr_eq_self zero_notMem_cStr)

/-! ## §1 The registry -/

/-- `struct ServiceInstance`. -/
structure ServiceInstance where
  serviceName : Bytes
  instanceId : Bytes
  host : Bytes
  port : UInt16
  deriving DecidableEq, Repr

/-- `ServiceInstance::address`. -/
def ServiceInstance.address (inst : ServiceInstance) : Bytes :=
  inst.host ++ ascii ":" ++ toDecimal inst.port.toNat

/-- The reply to a `GET`: no reply at all, a string, or another type (no such key, an error). -/
inductive GetReply
  | null
  | string (str : Bytes)
  | other
  deriving DecidableEq, Repr

/-- An element of the reply to `KEYS`, with the reply to the `GET` that is sent for it. -/
structure RegistryEntry where
  key : Bytes
  val : GetReply
  deriving DecidableEq, Repr

/-- The value of an entry, if it still has one. -/
def RegistryEntry.value (e : RegistryEntry) : Option Bytes :=
  match e.val with
  | .string str => some str
  | _ => none

/-- The reply to `KEYS`. -/
inductive KeysReply
  | null
  | array (element : List RegistryEntry)
  | other
  deriving DecidableEq, Repr

/-- `class ServiceRegistry`. -/
structure ServiceRegistry where
  serviceName : Bytes
  instances : List ServiceInstance
  deriving DecidableEq, Repr

namespace ServiceRegistry

/-- `"services:" + service_name_ + ":"`. -/
def keyPrefix (service : Bytes) : Bytes := ascii "services:" ++ service ++ ascii ":"

/-- What one entry adds to `new_instances`; the outer `none` stands for an exception. -/
def readEntry (service : Bytes) (e : RegistryEntry) : Option (Option ServiceInstance) :=
  let key := cStr e.key
  -- `substr` throws when the key is shorter than the prefix
  if key.length < (keyPrefix service).length then none
  else
    let instanceId := key.drop (keyPrefix service).length
    match e.val with
    | .string str =>
      match splitFirst 0x3A (cStr str) with
      | none => some none
      | some (host, port) =>
        (stoi port).map fun n => some ⟨service, instanceId, host, UInt16.ofInt n⟩
    | _ => some none

/-- The `for` loop of `Refresh`. -/
def readEntries (service : Bytes) : List RegistryEntry → Option (List ServiceInstance)
  | [] => some []
  | e :: es =>
    match readEntry service e with
    | none => none
    | some none => readEntries service es
    | some (some inst) => (readEntries service es).map (inst :: ·)

/-- `Refresh`: `none` for the connection when Redis is not available, and the outer `none` for an
exception. -/
def refresh (r : ServiceRegistry) : Option KeysReply → Option ServiceRegistry
  | some (.array element) =>
    (readEntries r.serviceName element).map fun instances => { r with instances := instances }
  | _ => some r

/-! ## §2 Well-formed values -/

/-- `value` has the form `host:port`, with a port in 0..65535. -/
structure HostPort (value host : Bytes) (port : Nat) : Prop where
  form : ∃ digits, value = host ++ 0x3A :: digits ∧ digits ≠ [] ∧
    (∀ b ∈ digits, isDigit b = true) ∧ decimalValue digits = port
  host : 0x3A ∉ host
  range : port ≤ 65535

/-- The canonical form of a value, if it is well formed. -/
def canonical (value : Bytes) : Option Bytes :=
  match splitFirst 0x3A value with
  | none => none
  | some (host, digits) =>
    if digits ≠ [] ∧ digits.all isDigit ∧ decimalValue digits ≤ 65535 then
      some (host ++ ascii ":" ++ toDecimal (decimalValue digits))
    else none

/-- What a refresh should find in the registry. -/
def addresses (entries : List RegistryEntry) : List Bytes :=
  entries.filterMap fun e => e.value.bind canonical

theorem canonical_eq_some {value addr : Bytes} :
    canonical value = some addr ↔
      ∃ host port, HostPort value host port ∧ addr = host ++ ascii ":" ++ toDecimal port := by
  unfold canonical
  constructor
  · intro h
    split at h
    · cases h
    · rename_i host digits hsplit
      obtain ⟨hvalue, hhost⟩ := splitFirst_eq_some.mp hsplit
      split_ifs at h with hdigits
      obtain ⟨hne, hall, hrange⟩ := hdigits
      exact ⟨host, _, ⟨⟨digits, hvalue, hne, List.all_eq_true.mp hall, rfl⟩, hhost, hrange⟩,
        (Option.some.inj h).symm⟩
  · rintro ⟨host, port, ⟨⟨digits, rfl, hne, hall, rfl⟩, hhost, hrange⟩, rfl⟩
    rw [splitFirst_append hhost]
    exact if_pos ⟨hne, List.all_eq_true.mpr hall, hrange⟩

/-! ## §3 One entry -/

theorem zero_notMem_of_isDigit {digits : Bytes} (h : ∀ b ∈ digits, isDigit b = true) :
    0 ∉ digits := fun hzero => absurd (h 0 hzero) (by decide)

theorem zero_notMem_address {inst : ServiceInstance} (h : 0 ∉ inst.host) :
    0 ∉ inst.address := by
  simp only [ServiceInstance.address, List.mem_append, not_or]
  exact ⟨⟨h, by decide⟩, zero_notMem_of_isDigit fun _ => isDigit_of_mem_toDecimal⟩

variable {service : Bytes} {e : RegistryEntry}

/-- Under the prefix of the service `substr` does not throw. -/
theorem readEntry_eq (hservice : 0 ∉ service) (hkey : keyPrefix service <+: e.key) :
    readEntry service e =
      match e.val with
      | .string str =>
        match splitFirst 0x3A (cStr str) with
        | none => some none
        | some (host, port) => (stoi port).map fun n =>
          some ⟨service, (cStr e.key).drop (keyPrefix service).length, host, UInt16.ofInt n⟩
      | _ => some none := by
  have hlen : (keyPrefix service).length ≤ (cStr e.key).length := by
    obtain ⟨suffix, hsuffix⟩ := hkey
    have hprefix : 0 ∉ keyPrefix service := by
      simp only [keyPrefix, List.mem_append, not_or]
      exact ⟨⟨by decide, hservice⟩, by decide⟩
    rw [← hsuffix, cStr_append_of_notMem hprefix, List.length_append]
    exact Nat.le_add_right _ _
  exact if_neg (Nat.not_lt.mpr hlen)

theorem readEntry_of_string (hservice : 0 ∉ service) (hkey : keyPrefix service <+: e.key)
    {str host port : Bytes} (hval : e.val = .string str)
    (hsplit : splitFirst 0x3A (cStr str) = some (host, port)) :
    readEntry service e = (stoi port).map fun n =>
      some ⟨service, (cStr e.key).drop (keyPrefix service).length, host, UInt16.ofInt n⟩ := by
  rw [readEntry_eq hservice hkey, hval]
  dsimp only
  rw [hsplit]

/-- An entry whose value has no `:` in front of its first zero byte is skipped. -/
theorem readEntry_skip (hservice : 0 ∉ service) (hkey : keyPrefix service <+: e.key)
    (h : ∀ str, e.val = .string str → 0x3A ∉ cStr str) : readEntry service e = some none := by
  rw [readEntry_eq hservice hkey]
  cases hval : e.val with
  | string str => simp only [splitFirst_eq_none.mpr (h str hval)]
  | null => rfl
  | other => rfl

/-- Any other value throws, or makes an instance. -/
theorem readEntry_colon (hservice : 0 ∉ service) (hkey : keyPrefix service <+: e.key)
    {str : Bytes} (hval : e.val = .string str) (h : 0x3A ∈ cStr str) :
    readEntry service e = none ∨
      ∃ inst, readEntry service e = some (some inst) ∧ 0 ∉ inst.host := by
  obtain ⟨host, port, hstr, hhost⟩ := List.eq_append_cons_of_mem h
  have hzero : 0 ∉ host := fun hzero => zero_notMem_cStr str <| by
    rw [hstr]
    exact List.mem_append_left _ hzero
  have hread := readEntry_of_string hservice hkey hval (splitFirst_eq_some.mpr ⟨hstr, hhost⟩)
  cases hstoi : stoi port with
  | none =>
    rw [hstoi] at hread
    exact Or.inl hread
  | some n =>
    rw [hstoi] at hread
    exact Or.inr ⟨_, hread, hzero⟩

theorem stoi_of_isDigit {digits : Bytes} (hne : digits ≠ [])
    (hdigits : ∀ b ∈ digits, isDigit b = true) (hrange : decimalValue digits ≤ 65535) :
    stoi digits = some (decimalValue digits : Int) := by
  rw [stoi, numeral_of_isDigit hne hdigits]
  apply Option.filter_some_pos
  rw [decide_eq_true_iff]
  omega

/-- A well-formed value is read, unless a zero byte in the host hides the `:`. -/
theorem readEntry_canonical (hservice : 0 ∉ service) (hkey : keyPrefix service <+: e.key)
    {str addr : Bytes} (hval : e.val = .string str) (hcanonical : canonical str = some addr) :
    (∃ inst, readEntry service e = some (some inst) ∧ inst.address = addr ∧ 0x3A ∈ cStr str) ∨
      (0x3A ∉ cStr str ∧ 0 ∈ addr) := by
  obtain ⟨host, port, ⟨⟨digits, rfl, hne, hall, rfl⟩, hhost, hrange⟩, rfl⟩ :=
    canonical_eq_some.mp hcanonical
  by_cases hzero : 0 ∈ host
  · right
    refine ⟨fun hcolon => ?_, List.mem_append_left _ (List.mem_append_left _ hzero)⟩
    -- what is in front of the zero byte is a part of the host
    obtain ⟨a, b, rfl, ha⟩ := List.eq_append_cons_of_mem hzero
    rw [List.append_assoc, List.cons_append, cStr_append_zero ha] at hcolon
    exact hhost (List.mem_append_left _ hcolon)
  · left
    have hstr : cStr (host ++ 0x3A :: digits) = host ++ 0x3A :: digits :=
      cStr_eq_self (by simp [hzero, zero_notMem_of_isDigit hall])
    have hsplit : splitFirst 0x3A (cStr (host ++ 0x3A :: digits)) = some (host, digits) := by
      rw [hstr, splitFirst_append hhost]
    have hread := readEntry_of_string hservice hkey hval hsplit
    rw [stoi_of_isDigit hne hall hrange] at hread
    refine ⟨_, hread, ?_, by simp [hstr]⟩
    have hport : (UInt16.ofInt (decimalValue digits : Int)).toNat = decimalValue digits := by
      rw [UInt16.ofInt, UInt16.toNat_ofNat']
      omega
    rw [ServiceInstance.address, hport]

/-! ## §4 All entries -/

/-- A refresh that does not throw has read every entry, in the order of the keys. -/
theorem readEntries_eq_some {es : List RegistryEntry} {insts : List ServiceInstance} :
    readEntries service es = some insts ↔
      (∀ e ∈ es, readEntry service e ≠ none) ∧
        insts = es.filterMap fun e => (readEntry service e).join := by
  induction es generalizing insts with
  | nil => simp [readEntries, eq_comm]
  | cons e es ih =>
    rw [readEntries, List.forall_mem_cons, List.filterMap_cons]
    cases hread : readEntry service e with
    | none => simp
    | some found =>
      cases found with
      | none => simp [ih]
      | some inst =>
        simp only [Option.map_eq_some_iff, ih, Option.join_some]
        constructor
        · rintro ⟨rest, ⟨hes, rfl⟩, rfl⟩
          exact ⟨⟨Option.some_ne_none _, hes⟩, rfl⟩
        · rintro ⟨⟨-, hes⟩, rfl⟩
          exact ⟨_, ⟨hes, rfl⟩, rfl⟩

theorem length_filterMap_le_of_sub {α β : Type*} {f g : α → Option β} {l : List α}
    (hsub : ∀ x ∈ l, ∀ y, g x = some y → f x = some y) :
    (l.filterMap g).length ≤ (l.filterMap f).length := by
  rw [List.length_filterMap_eq_countP, List.length_filterMap_eq_countP]
  refine List.countP_mono_left fun x hx hg => ?_
  obtain ⟨y, hy⟩ := Option.isSome_iff_exists.mp hg
  rw [hsub x hx y hy, Option.isSome_some]

/-- If `f` finds what `g` finds, and no more in all, then it finds the same everywhere. -/
theorem eq_of_filterMap_eq {α β : Type*} {f g : α → Option β} {l : List α}
    (hsub : ∀ x ∈ l, ∀ y, g x = some y → f x = some y) (h : l.filterMap f = l.filterMap g) :
    ∀ x ∈ l, f x = g x := by
  induction l with
  | nil => simp
  | cons x xs ih =>
    rw [List.forall_mem_cons] at hsub ⊢
    cases hg : g x with
    | some y =>
      have hf := hsub.1 y hg
      rw [List.filterMap_cons_some hf, List.filterMap_cons_some hg] at h
      exact ⟨hf, ih hsub.2 (List.cons.inj h).2⟩
    | none =>
      cases hf : f x with
      | none =>
        rw [List.filterMap_cons_none hf, List.filterMap_cons_none hg] at h
        exact ⟨rfl, ih hsub.2 h⟩
      | some y =>
        rw [List.filterMap_cons_some hf, List.filterMap_cons_none hg] at h
        have hle := length_filterMap_le_of_sub hsub.2
        have hlen := congrArg List.length h
        rw [List.length_cons] at hlen
        omega

/-- What the value of an entry must be for a refresh to read it: well formed exactly if there is
a `:` in front of its first zero byte, or of its end. -/
def Readable (e : RegistryEntry) : Prop :=
  ∀ str, e.val = .string str → ((canonical str).isSome = true ↔ 0x3A ∈ cStr str)

instance (e : RegistryEntry) : Decidable (Readable e) :=
  match hval : e.val with
  | .string str =>
    decidable_of_iff ((canonical str).isSome = true ↔ 0x3A ∈ cStr str)
      ⟨fun h _ hval' => GetReply.string.inj (hval.symm.trans hval') ▸ h, fun h => h str hval⟩
  | .null => isTrue fun _ hval' => absurd (hval.symm.trans hval') (by simp)
  | .other => isTrue fun _ hval' => absurd (hval.symm.trans hval') (by simp)

/-- The address that a refresh finds in an entry. -/
def found (service : Bytes) (e : RegistryEntry) : Option Bytes :=
  (readEntry service e).join.map ServiceInstance.address

theorem value_eq_some {e : RegistryEntry} {str : Bytes} :
    e.value = some str ↔ e.val = .string str := by
  unfold RegistryEntry.value
  cases e.val <;> simp

/-- A readable entry gives what it should. -/
theorem found_of_readable (hservice : 0 ∉ service) (hkey : keyPrefix service <+: e.key)
    (h : Readable e) : readEntry service e ≠ none ∧ found service e = e.value.bind canonical := by
  by_cases hcolon : ∃ str, e.val = .string str ∧ 0x3A ∈ cStr str
  · obtain ⟨str, hval, hstr⟩ := hcolon
    obtain ⟨addr, haddr⟩ := Option.isSome_iff_exists.mp ((h str hval).mpr hstr)
    rcases readEntry_canonical hservice hkey hval haddr with ⟨inst, hread, rfl, -⟩ | ⟨hno, -⟩
    · refine ⟨by simp [hread], ?_⟩
      rw [found, hread, value_eq_some.mpr hval, Option.bind_some, haddr]
      rfl
    · exact absurd hstr hno
  · have hskip : ∀ str, e.val = .string str → 0x3A ∉ cStr str := fun str hval hstr =>
      hcolon ⟨str, hval, hstr⟩
    have hread := readEntry_skip hservice hkey hskip
    refine ⟨by simp [hread], ?_⟩
    rw [found, hread]
    cases hvalue : e.value with
    | none => rfl
    | some str =>
      have hval := value_eq_some.mp hvalue
      have hnone : canonical str = none :=
        Option.not_isSome_iff_eq_none.mp fun hsome => hskip str hval ((h str hval).mp hsome)
      rw [Option.bind_some, hnone]
      rfl

/-- An entry that gives what it should is readable. -/
theorem readable_of_found (hservice : 0 ∉ service) (hkey : keyPrefix service <+: e.key)
    (hread : readEntry service e ≠ none) (h : found service e = e.value.bind canonical) :
    Readable e := by
  intro str hval
  rw [value_eq_some.mpr hval, Option.bind_some] at h
  constructor
  · intro hsome
    by_contra hcolon
    have hskip := readEntry_skip hservice hkey fun str' hval' =>
      (GetReply.string.inj (hval.symm.trans hval')) ▸ hcolon
    rw [← h, found, hskip] at hsome
    exact Bool.false_ne_true hsome
  · intro hcolon
    obtain ⟨inst, hinst, -⟩ := (readEntry_colon hservice hkey hval hcolon).resolve_left hread
    rw [← h, found, hinst]
    rfl

/-- What a refresh finds has no zero byte. -/
theorem zero_notMem_of_found (hservice : 0 ∉ service) (hkey : keyPrefix service <+: e.key)
    {addr : Bytes} (h : found service e = some addr) : 0 ∉ addr := by
  obtain ⟨inst, hinst, rfl⟩ := Option.map_eq_some_iff.mp h
  have hread : readEntry service e = some (some inst) := Option.join_eq_some_iff.mp hinst
  by_cases hcolon : ∃ str, e.val = .string str ∧ 0x3A ∈ cStr str
  · obtain ⟨str, hval, hstr⟩ := hcolon
    rcases readEntry_colon hservice hkey hval hstr with hthrow | ⟨inst', hread', hzero⟩
    · rw [hread] at hthrow
      cases hthrow
    · obtain rfl := Option.some.inj (Option.some.inj (hread.symm.trans hread'))
      exact zero_notMem_address hzero
  · have hskip := readEntry_skip hservice hkey fun str hval hstr => hcolon ⟨str, hval, hstr⟩
    rw [hread] at hskip
    cases hskip

/-- If a refresh finds what it should, it finds it entry by entry: an address with a zero byte is
not among what it finds. -/
theorem found_of_canonical {element : List RegistryEntry} (hservice : 0 ∉ service)
    (hkeys : ∀ e ∈ element, keyPrefix service <+: e.key)
    (haddresses : element.filterMap (found service) = addresses element)
    {addr : Bytes} (he : e ∈ element) (haddr : e.value.bind canonical = some addr) :
    found service e = some addr := by
  obtain ⟨str, hvalue, hcanonical⟩ := Option.bind_eq_some_iff.mp haddr
  rcases readEntry_canonical hservice (hkeys e he) (value_eq_some.mp hvalue) hcanonical with
    ⟨inst, hinst, rfl, -⟩ | ⟨-, hzero⟩
  · rw [found, hinst]
    rfl
  · have hmem : addr ∈ element.filterMap (found service) := by
      rw [haddresses, addresses]
      exact List.mem_filterMap.mpr ⟨e, he, haddr⟩
    obtain ⟨e', he', hfound⟩ := List.mem_filterMap.mp hmem
    exact absurd hzero (zero_notMem_of_found hservice (hkeys e' he') hfound)

/-- A refresh over the keys of the service ends without an exception and finds exactly the
well-formed values, in the order of the keys, if and only if it can read every value. -/
theorem refresh_reads_iff {r : ServiceRegistry} {element : List RegistryEntry}
    (hservice : 0 ∉ r.serviceName) (hkeys : ∀ e ∈ element, keyPrefix r.serviceName <+: e.key) :
    (∃ r', r.refresh (some (.array element)) = some r' ∧
        r'.instances.map ServiceInstance.address = addresses element) ↔
      ∀ e ∈ element, Readable e := by
  have hmap : ∀ es : List RegistryEntry,
      (es.filterMap fun e => (readEntry r.serviceName e).join).map ServiceInstance.address =
        es.filterMap (found r.serviceName) := fun es => List.map_filterMap ..
  constructor
  · rintro ⟨r', hrefresh, haddresses⟩
    obtain ⟨insts, hinsts, rfl⟩ := Option.map_eq_some_iff.mp hrefresh
    obtain ⟨hread, rfl⟩ := readEntries_eq_some.mp hinsts
    rw [hmap] at haddresses
    have hsub : ∀ e ∈ element, ∀ addr, e.value.bind canonical = some addr →
        found r.serviceName e = some addr := fun e he addr haddr =>
      found_of_canonical hservice hkeys haddresses he haddr
    intro e he
    exact readable_of_found hservice (hkeys e he) (hread e he)
      (eq_of_filterMap_eq hsub haddresses e he)
  · intro hreadable
    have hfound : ∀ e ∈ element, _ := fun e he =>
      found_of_readable hservice (hkeys e he) (hreadable e he)
    refine ⟨_, Option.map_eq_some_iff.mpr
      ⟨_, readEntries_eq_some.mpr ⟨fun e he => (hfound e he).1, rfl⟩, rfl⟩, ?_⟩
    rw [hmap, addresses]
    exact List.filterMap_congr fun e he => (hfound e he).2

/-- Two nodes, one of which has gone, and a key whose text is no address. -/
theorem refresh_reads_two :
    ∃ r', (ServiceRegistry.mk (ascii "chat") []).refresh (some (.array
        [⟨ascii "services:chat:a", .string (ascii "10.0.0.1:09001")⟩,
          ⟨ascii "services:chat:b", .other⟩,
          ⟨ascii "services:chat:c", .string (ascii "none")⟩])) = some r' ∧
      r'.instances.map ServiceInstance.address = addresses
        [⟨ascii "services:chat:a", .string (ascii "10.0.0.1:09001")⟩,
          ⟨ascii "services:chat:b", .other⟩,
          ⟨ascii "services:chat:c", .string (ascii "none")⟩] :=
  (refresh_reads_iff (by decide +kernel) (by decide +kernel)).mpr (by decide +kernel)

/-- A port that is no number: `stoi` throws. -/
theorem refresh_throws :
    ¬∃ r', (ServiceRegistry.mk (ascii "chat") []).refresh (some (.array
        [⟨ascii "services:chat:a", .string (ascii "127.0.0.1:port")⟩])) = some r' ∧
      r'.instances.map ServiceInstance.address = addresses
        [⟨ascii "services:chat:a", .string (ascii "127.0.0.1:port")⟩] := by
  rintro ⟨r', hrefresh, -⟩
  have hthrow : (ServiceRegistry.mk (ascii "chat") []).refresh (some (.array
      [⟨ascii "services:chat:a", .string (ascii "127.0.0.1:port")⟩])) = none := by decide +kernel
  rw [hthrow] at hrefresh
  cases hrefresh

/-- A port out of range is cut off. -/
example : ((ServiceRegistry.mk (ascii "chat") []).refresh (some (.array
      [⟨ascii "services:chat:a", .string (ascii "h:99999")⟩]))).map
    (fun r => r.instances.map ServiceInstance.address) = some [ascii "h:34463"] := by
  decide +kernel

end ServiceRegistry

end EchoNet.Gateway

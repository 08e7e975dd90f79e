import Talos.Encoding.JsonMembers
import Talos.Encoding.SelfDelimiting

/-!
# Payload digests

`computePayloadDigest` of `packages/sdk/src/a2a-validation.ts` passes the sorted names of the
payload's members as the second argument of `JSON.stringify`, which selects members by name at
every depth. So the digest binds the payload exactly if there is no object in it
(`digest_binds_iff`). The hash is a parameter, to be thought of as free of collisions.
-/

namespace Talos.Sdk.A2A

open Encoding

/-- A JSON object, without two members of the same name at any depth. -/
structure Payload where
  members : Members
  valid : (Json.object members).Valid

structure PayloadDigest where
  hash : String
  algorithm : String
  timestamp : String

namespace Payload

variable (p q : Payload)

/-- `Object.keys(payload).sort()` -/
def names : List Utf16 := (p.members.map Prod.fst).insertionSort ordinalLE

def payloadString : Utf16 := ((Json.object p.members).select p.names).text

/-- Equal up to the order of the members at every depth. -/
def Same : Prop := (Json.object p.members).sorted = (Json.object q.members).sorted

/-- No member is or holds an object. -/
def Flat : Prop := ∀ m ∈ p.members, m.2.Flat

end Payload

/-- The hash of the code, on 32 bits. -/
def simpleHash (payloadString : Utf16) : String :=
  let hash : BitVec 32 :=
    payloadString.foldl (fun hash char => (hash <<< 5) - hash + BitVec.ofNat 32 char.toNat) 0
  String.ofList (((Nat.toDigits 16 hash.toInt.natAbs).leftpad 64 '0').take 64)

example : (simpleHash [123, 125]).toList = ['f', '6', '2'].leftpad 64 '0' := by decide

def computePayloadDigest (hash : Utf16 → String) (now : String) (p : Payload) : PayloadDigest :=
  ⟨hash p.payloadString, "sha-256", now⟩

def verifyPayloadDigest (hash : Utf16 → String) (now : String) (p : Payload)
    (digest : PayloadDigest) : Bool :=
  let computed := computePayloadDigest hash now p
  computed.hash = digest.hash && computed.algorithm = digest.algorithm

variable {hash : Utf16 → String} {p q : Payload} {now now' : String}

theorem verifyPayloadDigest_iff (injective : Function.Injective hash) :
    verifyPayloadDigest hash now' q (computePayloadDigest hash now p) = true ↔
      q.payloadString = p.payloadString := by
  simp only [verifyPayloadDigest, computePayloadDigest, decide_true, Bool.and_true]
  exact decide_eq_true_iff.trans injective.eq_iff

/-- The members of a payload that hold no objects are only sorted. -/
theorem sorted_eq (flat : p.Flat) :
    (Json.object p.members).sorted = .object (Json.sortMembers p.members) := by
  rw [Json.sorted, Json.rewrite, Json.rewriteMembers_eq_self flat]

theorem names_eq (p : Payload) : p.names = (Json.sortMembers
    (Json.rewriteMembers Json.sortMembers p.members)).map Prod.fst := by
  rw [Json.keys_sortMembers, Json.keys_rewriteMembers, Payload.names]

theorem payloadString_of_same (same : q.Same p) : q.payloadString = p.payloadString := by
  have names : q.names = p.names := by
    rw [names_eq, names_eq, Json.object.inj same]
  rw [Payload.payloadString, Payload.payloadString, names, ← Json.select_sorted p.valid,
    ← Json.select_sorted q.valid, same]

theorem select_eq_sorted (flat : p.Flat) :
    (Json.object p.members).select p.names = (Json.object p.members).sorted := by
  have perm := Json.perm_sortMembers p.members
  have nodup : (p.members.map Prod.fst).Nodup := p.valid.1
  rw [sorted_eq flat, Json.select, Json.rewrite, Json.rewriteMembers_eq_self flat,
    ← Json.pick_perm perm ((perm.map Prod.fst).nodup_iff.mpr nodup), Payload.names,
    ← Json.keys_sortMembers, Json.pick_keys ((perm.map Prod.fst).nodup_iff.mpr nodup)]

/-- All members are selected, so a payload with an object is not written as one without. -/
theorem flat_of_select (p : Payload) {members : Members} (flat : ∀ m ∈ members, m.2.Flat)
    (same : (Json.object p.members).select p.names = .object members) : p.Flat := by
  intro m mem
  have nodup : ((Json.rewriteMembers (Json.pick p.names) p.members).map Prod.fst).Nodup := by
    rw [Json.keys_rewriteMembers]
    exact p.valid.1
  have rewritten : (m.1, m.2.rewrite (Json.pick p.names)) ∈
      Json.rewriteMembers (Json.pick p.names) p.members := by
    rw [Json.rewriteMembers_eq]
    exact List.mem_map_of_mem mem
  have named : m.1 ∈ p.names := (List.mem_insertionSort _).mpr (List.mem_map_of_mem mem)
  have picked : (m.1, m.2.rewrite (Json.pick p.names)) ∈ members := by
    rw [← Json.object.inj same]
    refine List.mem_filterMap.mpr ⟨m.1, named, ?_⟩
    rw [(Json.lookup_eq_some nodup).mpr rewritten]
    rfl
  exact Json.flat_rewrite.mp (flat _ picked)

theorem same_of_payloadString (flat : p.Flat) (same : q.payloadString = p.payloadString) :
    q.Same p := by
  have selected := Json.text_injective same
  rw [select_eq_sorted flat, sorted_eq flat] at selected
  have flat' : q.Flat := flat_of_select q
    (fun m mem => flat m ((Json.perm_sortMembers _).mem_iff.mp mem)) selected
  rw [select_eq_sorted flat'] at selected
  rw [Payload.Same, selected, sorted_eq flat]

/-- The payload with one more member in every object that it holds. -/
def Payload.extended (p : Payload) {k : Utf16} (new : (Json.object p.members).Without k) :
    Payload where
  members := Json.rewriteMembers ((k, .null) :: ·) p.members
  valid := by
    have valid := p.valid
    simp only [Json.Valid, Json.Without, Json.All, Json.allMembers_iff, Json.keys_rewriteMembers]
      at valid new ⊢
    refine ⟨valid.1, ?_⟩
    rw [Json.rewriteMembers_eq, List.forall_mem_map]
    exact fun m mem => Json.valid_extend (valid.2 m mem) (new.2 m mem)

theorem payloadString_extended {k : Utf16} (new : (Json.object p.members).Without k) :
    (p.extended new).payloadString = p.payloadString := by
  have names : (p.extended new).names = p.names := by
    rw [Payload.names, Payload.extended, Json.keys_rewriteMembers, Payload.names]
  have other : k ∉ p.names := fun mem => new.1 ((List.mem_insertionSort _).mp mem)
  have inner : Json.rewriteMembers (Json.pick p.names)
      (Json.rewriteMembers ((k, .null) :: ·) p.members) =
      Json.rewriteMembers (Json.pick p.names) p.members := by
    simp only [Json.rewriteMembers_eq, List.map_map]
    exact List.map_congr_left fun m _ => Prod.ext rfl (Json.select_extend other)
  rw [Payload.payloadString, names, Json.select, Json.rewrite, Payload.extended, inner,
    Payload.payloadString, Json.select, Json.rewrite]

theorem flat_of_same_extended {k : Utf16} (new : (Json.object p.members).Without k)
    (same : (p.extended new).Same p) : p.Flat := by
  have without : (Json.object (p.extended new).members).Without k := by
    have equal : (Json.object (p.extended new).members).sorted = (Json.object p.members).sorted :=
      same
    rw [← Json.without_sorted, equal]
    exact Json.without_sorted.mpr new
  simp only [Json.Without, Json.All, Json.allMembers_iff, Payload.extended,
    Json.rewriteMembers_eq, List.forall_mem_map] at without
  exact fun m mem => Json.flat_of_without_extend (without.2 m mem)

/-- The digest binds a payload if and only if there is no object in it. -/
theorem digest_binds_iff {hash : Utf16 → String} (injective : Function.Injective hash)
    (p : Payload) :
    (∀ q now now', verifyPayloadDigest hash now' q (computePayloadDigest hash now p) = true ↔
      q.Same p) ↔ p.Flat := by
  simp only [verifyPayloadDigest_iff injective]
  constructor
  · intro binds
    obtain ⟨n, new⟩ := Json.exists_without (.object p.members)
    have new := new n le_rfl
    exact flat_of_same_extended new ((binds _ "" "").mp (payloadString_extended new))
  · exact fun flat q _ _ => ⟨same_of_payloadString flat, payloadString_of_same⟩

/-- Each unit as a character of its own. -/
theorem digest_binds_greeting :
    let p : Payload := ⟨[([107], .string [118])], by simp [Json.Valid, Json.All, Json.AllMembers]⟩
    let spell (s : Utf16) := String.ofList (s.map fun u => Char.ofNat (0x10000 + u.toNat))
    ∀ q now now', verifyPayloadDigest spell now' q (computePayloadDigest spell now p) = true ↔
      q.Same p := by
  intro p spell
  have unit (u : UInt16) : (Char.ofNat (0x10000 + u.toNat)).toNat = 0x10000 + u.toNat := by
    have lt := u.toNat_lt
    have valid : (0x10000 + u.toNat).isValidChar := .inr ⟨by omega, by omega⟩
    rw [Char.ofNat, dif_pos valid]
    rfl
  have injective : Function.Injective spell := by
    refine fun s t equal => List.map_injective_iff.mpr (fun u v same => ?_)
      (String.ofList_injective equal)
    have codes := congrArg Char.toNat same
    rw [unit, unit] at codes
    exact UInt16.toNat_inj.mp (Nat.add_left_cancel codes)
  exact (digest_binds_iff injective p).mpr fun m mem => by
    cases List.mem_singleton.mp mem
    trivial

/-- A nested member is changed, and the digest is still accepted. -/
theorem nested_change_undetected :
    let nested (value : Utf16) : Payload :=
      ⟨[([97], .object [([120], .string value)])], by
        simp [Json.Valid, Json.All, Json.AllMembers]⟩
    ¬ (nested [50]).Same (nested [49]) ∧ ∀ hash now now',
      verifyPayloadDigest hash now' (nested [50])
        (computePayloadDigest hash now (nested [49])) = true := by
  intro nested
  constructor
  · intro same
    cases same
  · intro hash now now'
    have written : (nested [50]).payloadString = (nested [49]).payloadString := by decide
    simp only [verifyPayloadDigest, computePayloadDigest, written, decide_true, Bool.and_true]

end Talos.Sdk.A2A

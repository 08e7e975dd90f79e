import Talos.NameService.Validation
import Mathlib.Data.List.DropRight

/-!
# Name validation over stack buffers

`talos_name_service/src/validation.rs` is `no_std`: it copies the string into an array on the stack
and works on indices of it, every one of which is checked. The functions of this module keep the
arrays and the indices; each equals the function on lists that the rest of the contract is modelled
with, so none of them ever indexes out of bounds.
-/

namespace Talos.NameService

open Talos.Soroban

namespace Buffers

variable {E : Type}

/-- `buf[i]`. -/
def read (buf : Bytes) (i : Nat) : Outcome E UInt8 :=
  orReject buf[i]? (.panic "index out of bounds")

/-- `buf[i] = b`. -/
def write (buf : Bytes) (i : Nat) (b : UInt8) : Outcome E Bytes := do
  rejectIf (buf.length ≤ i) (.panic "index out of bounds")
  .ok (buf.set i b)

/-- `&buf[start..stop]`. -/
def slice (buf : Bytes) (start stop : Nat) : Outcome E Bytes := do
  rejectIf (stop < start) (.panic "slice index starts after its end")
  rejectIf (buf.length < stop) (.panic "range end index out of range for slice")
  .ok ((buf.take stop).drop start)

/-- `name.copy_into_slice(&mut buf[..name.len()])`. -/
def copyIntoSlice (name buf : Bytes) : Outcome E Bytes := do
  rejectIf (buf.length < name.length) (.panic "range end index out of range for slice")
  .ok (name ++ buf.drop name.length)

/-- The first loop of `canonicalize_name`, from `start` on. -/
def trimStart (buf : Bytes) (stop start : Nat) : Outcome E Nat :=
  if start < stop then do
    let b ← read buf start
    if isTrimmed b then trimStart buf stop (start + 1) else .ok start
  else .ok start
termination_by stop - start

/-- The second loop of `canonicalize_name`, down to `start`. -/
def trimEnd (buf : Bytes) (start : Nat) : Nat → Outcome E Nat
  | 0 => .ok 0
  | stop + 1 =>
    if start < stop + 1 then do
      let b ← read buf stop
      if isTrimmed b then trimEnd buf start stop else .ok (stop + 1)
    else .ok (stop + 1)

/-- The third loop of `canonicalize_name`: the bytes still to be lowercased go to `out[i]` on. -/
def lowerInto (out : Bytes) (i : Nat) : Bytes → Outcome E Bytes
  | [] => .ok out
  | b :: rest => do
    let out ← write out i (toAsciiLowercase b)
    lowerInto out (i + 1) rest

def canonicalizeName (name : Bytes) : Outcome E Bytes := do
  let rawLen := name.length
  rejectIf (rawLen > 64) (.panic "Name exceeds maximum input length for canonicalization")
  let buf ← copyIntoSlice name (List.replicate 64 0)
  let start ← trimStart buf rawLen 0
  let stop ← trimEnd buf start rawLen
  rejectIf (start = stop) (.panic "Name cannot be empty after canonicalization")
  let trimmedLen := stop - start
  rejectIf (trimmedLen > 32) (.panic "Name exceeds maximum byte length after canonicalization")
  let kept ← slice buf start stop
  let out ← lowerInto (List.replicate 32 0) 0 kept
  slice out 0 trimmedLen

/-- The loop of `validate_name`, from index `i` on. -/
def validateChars (buf : Bytes) (len i : Nat) (prevHyphen : Bool) : Outcome E Bool :=
  if i < len then do
    let b ← read buf i
    if isAsciiLowercase b || isAsciiDigit b then validateChars buf len (i + 1) false
    else if b = hyphen then
      if prevHyphen then .ok false else validateChars buf len (i + 1) true
    else .ok false
  else .ok true
termination_by len - i

def validateName (name : Bytes) : Outcome E Bool :=
  let len := name.length
  if len < 3 ∨ len > 32 then .ok false
  else do
    let buf ← copyIntoSlice name (List.replicate 32 0)
    let first ← read buf 0
    if first = hyphen then .ok false
    else do
      let last ← read buf (len - 1)
      if last = hyphen then .ok false else validateChars buf len 0 false

/-! ### The buffer holds the string -/

variable {buf raw pad : Bytes} {i start stop : Nat}

theorem copyIntoSlice_of_length_le (fits : raw.length ≤ buf.length) :
    (copyIntoSlice raw buf : Outcome E Bytes) = .ok (raw ++ buf.drop raw.length) := by
  rw [copyIntoSlice, rejectIf_neg (Nat.not_lt.mpr fits), bind_ok]

theorem read_append (h : i < raw.length) :
    (read (raw ++ pad) i : Outcome E UInt8) = .ok raw[i] := by
  rw [read, List.getElem?_append_left h, List.getElem?_eq_getElem h, orReject_some]

/-- A slice that ends within the string. -/
theorem slice_append (ordered : start ≤ stop) (h : stop ≤ raw.length) :
    (slice (raw ++ pad) start stop : Outcome E Bytes) = .ok ((raw.take stop).drop start) := by
  have within : ¬ (raw ++ pad).length < stop := by
    rw [List.length_append]
    omega
  rw [slice, rejectIf_neg (Nat.not_lt.mpr ordered), bind_ok, rejectIf_neg within, bind_ok,
    List.take_append_of_le_length h]

/-! ### Trimming -/

theorem trim_eq_rdropWhile : trim raw = (raw.dropWhile isTrimmed).rdropWhile isTrimmed := rfl

theorem trimStart_append (start : Nat) : start ≤ raw.length →
    (trimStart (raw ++ pad) raw.length start : Outcome E Nat) =
      .ok (start + ((raw.drop start).takeWhile isTrimmed).length) := by
  fun_induction trimStart (E := E) (raw ++ pad) raw.length start with
  | case1 start more ih =>
    intro _
    rw [read_append more, bind_ok, List.drop_eq_getElem_cons more, List.takeWhile_cons]
    cases trimmed : isTrimmed raw[start] with
    | true =>
      rw [if_pos rfl, if_pos rfl, ih more, List.length_cons]
      congr 1
      omega
    | false =>
      rw [if_neg Bool.false_ne_true, if_neg Bool.false_ne_true]
      rfl
  | case2 start done =>
    intro within
    have finished : start = raw.length := by omega
    rw [finished, List.drop_length, List.takeWhile_nil]
    rfl

/-- What the second loop leaves is the window with its trailing whitespace removed. -/
theorem trimEnd_append : ∀ stop, start ≤ stop → stop ≤ raw.length →
    (trimEnd (raw ++ pad) start stop : Outcome E Nat) =
      .ok (start + (((raw.take stop).drop start).rdropWhile isTrimmed).length)
  | 0, ordered, _ => by
    obtain rfl : start = 0 := by omega
    rfl
  | stop + 1, ordered, within => by
    rw [trimEnd]
    by_cases more : start < stop + 1
    · have window : (raw.take (stop + 1)).drop start =
          (raw.take stop).drop start ++ [raw[stop]] := by
        rw [← List.take_append_getElem (by omega : stop < raw.length),
          List.drop_append_of_le_length]
        rw [List.length_take]
        omega
      rw [if_pos more, read_append (by omega), bind_ok, window, List.rdropWhile_concat]
      cases trimmed : isTrimmed raw[stop] with
      | true =>
        rw [if_pos rfl, if_pos rfl]
        exact trimEnd_append stop (by omega) (by omega)
      | false =>
        rw [if_neg Bool.false_ne_true, if_neg Bool.false_ne_true, List.length_append,
          List.length_drop, List.length_take, List.length_singleton]
        congr 1
        omega
    · obtain rfl : start = stop + 1 := by omega
      rw [if_neg more, List.drop_eq_nil_of_le (by rw [List.length_take]; omega)]
      rfl

/-! ### Lowercasing -/

theorem write_append (done : Bytes) (old b : UInt8) :
    (write (done ++ old :: pad) done.length b : Outcome E Bytes) = .ok (done ++ b :: pad) := by
  have within : ¬ (done ++ old :: pad).length ≤ done.length := by
    rw [List.length_append, List.length_cons]
    omega
  rw [write, rejectIf_neg within, bind_ok, List.set_append_right _ _ (Nat.le_refl _), Nat.sub_self,
    List.set_cons_zero]

/-- The bytes are written behind those already `done`, over what the buffer held there. -/
theorem lowerInto_append : ∀ (src done room : Bytes), src.length ≤ room.length →
    (lowerInto (done ++ room) done.length src : Outcome E Bytes) =
      .ok (done ++ src.map toAsciiLowercase ++ room.drop src.length)
  | [], done, room, _ => by
    rw [lowerInto, List.map_nil, List.append_nil, List.length_nil, List.drop_zero]
  | b :: rest, done, [], fits => absurd fits (Nat.not_succ_le_zero _)
  | b :: rest, done, old :: room, fits => by
    have written : done ++ toAsciiLowercase b :: room = (done ++ [toAsciiLowercase b]) ++ room := by
      rw [List.append_assoc, List.singleton_append]
    have next : done.length + 1 = (done ++ [toAsciiLowercase b]).length := by
      rw [List.length_append, List.length_singleton]
    rw [lowerInto, write_append, bind_ok, written, next,
      lowerInto_append rest _ room (Nat.le_of_succ_le_succ fits), List.map_cons, List.length_cons,
      List.drop_succ_cons, List.append_assoc, List.append_assoc, List.append_assoc,
      List.singleton_append, List.cons_append]

/-! ### The functions on lists -/

/-- The string behind its leading whitespace. -/
theorem drop_length_takeWhile :
    raw.drop (raw.takeWhile isTrimmed).length = raw.dropWhile isTrimmed := by
  calc raw.drop (raw.takeWhile isTrimmed).length
      = (raw.takeWhile isTrimmed ++ raw.dropWhile isTrimmed).drop
          (raw.takeWhile isTrimmed).length := by rw [List.takeWhile_append_dropWhile]
    _ = raw.dropWhile isTrimmed := List.drop_left

theorem canonicalizeName_eq (raw : Bytes) :
    (canonicalizeName raw : Outcome E Bytes) = NameService.canonicalizeName raw := by
  rw [canonicalizeName, NameService.canonicalizeName]
  dsimp only
  by_cases long : raw.length > 64
  · rw [rejectIf_pos long, bind_error, bind_error]
  have lead : (raw.takeWhile isTrimmed).length ≤ raw.length :=
    (List.takeWhile_prefix isTrimmed).length_le
  have window : ((raw.take raw.length).drop (raw.takeWhile isTrimmed).length).rdropWhile isTrimmed =
      trim raw := by
    rw [List.take_length, drop_length_takeWhile, trim_eq_rdropWhile]
  have kept : trim raw <+: raw.drop (raw.takeWhile isTrimmed).length := by
    rw [drop_length_takeWhile, trim_eq_rdropWhile]
    exact List.rdropWhile_prefix isTrimmed _
  have room : (raw.takeWhile isTrimmed).length + (trim raw).length ≤ raw.length := by
    have := kept.length_le
    rw [List.length_drop] at this
    omega
  rw [rejectIf_neg long, bind_ok, bind_ok, copyIntoSlice_of_length_le
    (by rw [List.length_replicate]; omega), bind_ok, trimStart_append 0 (Nat.zero_le _), bind_ok,
    Nat.zero_add, List.drop_zero, trimEnd_append raw.length lead (Nat.le_refl _), bind_ok, window]
  by_cases blank : trim raw = []
  · rw [rejectIf_pos (by rw [blank]; rfl), rejectIf_pos blank, bind_error, bind_error]
  have nonempty : (trim raw).length ≠ 0 := fun empty => blank (List.length_eq_zero_iff.mp empty)
  rw [rejectIf_neg (by omega), rejectIf_neg blank, bind_ok, bind_ok, Nat.add_sub_cancel_left]
  by_cases wide : (trim raw).length > 32
  · rw [rejectIf_pos wide, bind_error, bind_error]
  have cut : (raw.take ((raw.takeWhile isTrimmed).length + (trim raw).length)).drop
      (raw.takeWhile isTrimmed).length = trim raw := by
    rw [List.drop_take, Nat.add_sub_cancel_left]
    exact (List.prefix_iff_eq_take.mp kept).symm
  have lowered : (lowerInto (List.replicate 32 0) 0 (trim raw) : Outcome E Bytes) =
      .ok ((trim raw).map toAsciiLowercase ++ (List.replicate 32 0).drop (trim raw).length) :=
    lowerInto_append (trim raw) [] (List.replicate 32 0) (by rw [List.length_replicate]; omega)
  have whole : ((trim raw).map toAsciiLowercase).take (trim raw).length =
      (trim raw).map toAsciiLowercase :=
    List.take_of_length_le (by rw [List.length_map])
  rw [rejectIf_neg wide, bind_ok, bind_ok, slice_append (Nat.le_add_right _ _) room, bind_ok, cut,
    lowered, bind_ok, slice_append (Nat.zero_le _) (by rw [List.length_map]), List.drop_zero, whole]

theorem validateChars_append (i : Nat) (prevHyphen : Bool) : i ≤ raw.length →
    (validateChars (raw ++ pad) raw.length i prevHyphen : Outcome E Bool) =
      .ok (validChars prevHyphen (raw.drop i)) := by
  fun_induction validateChars (E := E) (raw ++ pad) raw.length i prevHyphen with
  | case1 i prevHyphen more ihAlnum ihHyphen =>
    intro _
    rw [read_append more, bind_ok, List.drop_eq_getElem_cons more, validChars]
    by_cases alnum : (isAsciiLowercase raw[i] || isAsciiDigit raw[i]) = true
    · rw [if_pos alnum, if_pos alnum, ihAlnum more]
    rw [if_neg alnum, if_neg alnum]
    by_cases isHyphen : raw[i] = hyphen
    · rw [if_pos isHyphen, if_pos isHyphen]
      cases prevHyphen with
      | true => rfl
      | false =>
        rw [if_neg Bool.false_ne_true, if_neg Bool.false_ne_true, ihHyphen more]
    · rw [if_neg isHyphen, if_neg isHyphen]
  | case2 i prevHyphen done =>
    intro within
    have finished : i = raw.length := by omega
    rw [finished, List.drop_length, validChars]

theorem validateName_eq (name : Bytes) :
    (validateName name : Outcome E Bool) = .ok (NameService.validateName name) := by
  rw [validateName, NameService.validateName]
  by_cases outside : name.length < 3 ∨ name.length > 32
  · rw [if_pos outside, if_pos outside]
  have nonempty : 0 < name.length := by omega
  have inside : name.length - 1 < name.length := by omega
  have first : name.head? = some hyphen ↔ name[0] = hyphen := by
    rw [List.head?_eq_getElem?, List.getElem?_eq_getElem nonempty, Option.some.injEq]
  have last : name.getLast? = some hyphen ↔ name[name.length - 1] = hyphen := by
    rw [List.getLast?_eq_getElem?, List.getElem?_eq_getElem inside, Option.some.injEq]
  rw [if_neg outside, if_neg outside, copyIntoSlice_of_length_le
    (by rw [List.length_replicate]; omega), bind_ok, read_append nonempty, bind_ok]
  by_cases leading : name[0] = hyphen
  · rw [if_pos leading, if_pos (Or.inl (first.mpr leading))]
  rw [if_neg leading, read_append inside, bind_ok]
  by_cases trailing : name[name.length - 1] = hyphen
  · rw [if_pos trailing, if_pos (Or.inr (last.mpr trailing))]
  rw [if_neg trailing, if_neg (not_or.mpr ⟨mt first.mp leading, mt last.mp trailing⟩),
    validateChars_append 0 false (Nat.zero_le _), List.drop_zero]

end Buffers

end Talos.NameService

import Mathlib.Algebra.Order.Ring.Int
import Mathlib.Data.List.Basic
import Mathlib.Tactic.Common

/-!
# CrownFi.Lib.Text

**Delimited fields and hexadecimal text.** Messages that are built by joining
fields with a separator give a field back as soon as the fields next to it are
known not to contain the separator. Hexadecimal text never contains a separator,
and determines the bytes it was made from.
-/

namespace Lib

variable {α : Type*} {x : α} {a b a' b' : List α}

/-- The first separator ends the first field. -/
theorem append_cons_inj (ha : x ∉ a) (ha' : x ∉ a') (h : a ++ x :: b = a' ++ x :: b') :
    a = a' ∧ b = b' := by
  induction a generalizing a' with
  | nil =>
      cases a' with
      | nil => exact ⟨rfl, by simpa using h⟩
      | cons c a' =>
          obtain ⟨rfl, -⟩ := List.cons.inj h
          simp at ha'
  | cons c a ih =>
      cases a' with
      | nil =>
          obtain ⟨rfl, -⟩ := List.cons.inj h
          simp at ha
      | cons d a' =>
          obtain ⟨rfl, hrest⟩ := List.cons.inj h
          obtain ⟨rfl, rfl⟩ := ih (fun hm => ha (by simp [hm])) (fun hm => ha' (by simp [hm])) hrest
          exact ⟨rfl, rfl⟩

/-- The last separator starts the last field. -/
theorem append_cons_inj_right (hb : x ∉ b) (hb' : x ∉ b') (h : a ++ x :: b = a' ++ x :: b') :
    a = a' ∧ b = b' := by
  have hrev := congrArg List.reverse h
  simp only [List.reverse_append, List.reverse_cons, List.append_assoc, List.cons_append,
    List.nil_append] at hrev
  obtain ⟨hb, ha⟩ := append_cons_inj (by simpa using hb) (by simpa using hb') hrev
  exact ⟨List.reverse_injective ha, List.reverse_injective hb⟩

section Join

variable {p q s t u t' u' sep : String} {c : Char}

theorem join_toList (hsep : sep.toList = [c]) :
    (p ++ s ++ sep ++ t).toList = p.toList ++ (s.toList ++ c :: t.toList) := by
  simp [String.toList_append, hsep]

/-- A text joined of two fields after a prefix gives them back when the first has no separator. -/
theorem join_inj_left (hsep : sep.toList = [c]) (ht : c ∉ t.toList) (ht' : c ∉ t'.toList)
    (h : p ++ t ++ sep ++ u = p ++ t' ++ sep ++ u') : t = t' ∧ u = u' := by
  have hlist := congrArg String.toList h
  rw [join_toList hsep, join_toList hsep] at hlist
  obtain ⟨ht, hu⟩ := append_cons_inj ht ht' (List.append_cancel_left hlist)
  exact ⟨String.toList_inj.mp ht, String.toList_inj.mp hu⟩

/-- The same when the second has none. -/
theorem join_inj_right (hsep : sep.toList = [c]) (hu : c ∉ u.toList) (hu' : c ∉ u'.toList)
    (h : p ++ t ++ sep ++ u = p ++ t' ++ sep ++ u') : t = t' ∧ u = u' := by
  have hlist := congrArg String.toList h
  rw [join_toList hsep, join_toList hsep] at hlist
  obtain ⟨ht, hu⟩ := append_cons_inj_right hu hu' (List.append_cancel_left hlist)
  exact ⟨String.toList_inj.mp ht, String.toList_inj.mp hu⟩

/-- Prefixes that differ at a position keep two families of texts apart. -/
theorem append_ne_append {i : Nat} (hp : i < p.toList.length) (hq : i < q.toList.length)
    (h : p.toList[i]? ≠ q.toList[i]?) : p ++ s ≠ q ++ t := by
  intro heq
  refine h ?_
  have hlist := congrArg (fun r => r.toList[i]?) heq
  simp only [String.toList_append] at hlist
  rwa [List.getElem?_append_left hp, List.getElem?_append_left hq] at hlist

end Join

/-! ### Hexadecimal text -/

def hexDigits : List Char :=
  ['0', '1', '2', '3', '4', '5', '6', '7', '8', '9', 'a', 'b', 'c', 'd', 'e', 'f']

/-- The lower-case digit of a number below 16. -/
def hexDigit (n : Nat) : Char := hexDigits.getD n '0'

def hexByte (b : UInt8) : List Char := [hexDigit (b.toNat / 16), hexDigit (b.toNat % 16)]

/-- Two lower-case digits a byte. -/
def hexEncode (bytes : List UInt8) : String := String.ofList (bytes.flatMap hexByte)

theorem hexDigit_mem (n : Nat) : hexDigit n ∈ hexDigits := by
  unfold hexDigit
  rw [List.getD_eq_getElem?_getD]
  cases h : hexDigits[n]? with
  | none => decide
  | some c => exact List.mem_of_getElem? h

theorem hexDigit_inj {m n : Nat} (hm : m < 16) (hn : n < 16) (h : hexDigit m = hexDigit n) :
    m = n := by
  have hall : ∀ i j : Fin 16, hexDigit i = hexDigit j → i = j := by decide
  exact congrArg Fin.val (hall ⟨m, hm⟩ ⟨n, hn⟩ h)

theorem hexByte_inj {b c : UInt8} (h : hexByte b = hexByte c) : b = c := by
  have hb := b.toNat_lt
  have hc := c.toNat_lt
  simp only [hexByte, List.cons.injEq, and_true] at h
  have hhi := hexDigit_inj (by omega) (by omega) h.1
  have hlo := hexDigit_inj (by omega) (by omega) h.2
  exact UInt8.toNat_inj.mp (by omega)

theorem mem_hexEncode {bytes : List UInt8} {c : Char} (h : c ∈ (hexEncode bytes).toList) :
    c ∈ hexDigits := by
  simp only [hexEncode, String.toList_ofList, List.mem_flatMap, hexByte, List.mem_cons,
    List.not_mem_nil, or_false] at h
  obtain ⟨b, -, rfl | rfl⟩ := h <;> exact hexDigit_mem _

@[simp] theorem length_hexEncode (bytes : List UInt8) :
    (hexEncode bytes).toList.length = 2 * bytes.length := by
  rw [hexEncode, String.toList_ofList]
  induction bytes with
  | nil => rfl
  | cons b bytes ih => simp [List.flatMap_cons, hexByte] at ih ⊢; omega

theorem hexEncode_injective : Function.Injective hexEncode := by
  intro bs cs h
  have hlist : bs.flatMap hexByte = cs.flatMap hexByte := by
    simpa [hexEncode] using congrArg String.toList h
  clear h
  induction bs generalizing cs with
  | nil =>
      cases cs with
      | nil => rfl
      | cons c cs => simp [hexByte] at hlist
  | cons b bs ih =>
      cases cs with
      | nil => simp [hexByte] at hlist
      | cons c cs =>
          rw [List.flatMap_cons, List.flatMap_cons] at hlist
          obtain ⟨hbyte, hrest⟩ := List.append_inj hlist rfl
          rw [hexByte_inj hbyte, ih hrest]

/-! ### UTF-8 -/

theorem toList_loop (b : ByteArray) (i : Nat) (bytes : List UInt8) :
    ByteArray.toList.loop b i bytes = bytes.reverse ++ b.data.toList.drop i := by
  have hsize : b.size = b.data.toList.length := Array.length_toList.symm
  induction hn : b.size - i generalizing i bytes with
  | zero =>
      rw [ByteArray.toList.loop, if_neg (by omega), List.drop_eq_nil_of_le (by omega), List.append_nil]
  | succ n ih =>
      have hi : i < b.data.toList.length := by omega
      have hget : b.get! i = b.data.toList[i] := by
        rw [Array.getElem_toList]
        exact getElem!_pos b.data i (by simpa using hi)
      rw [ByteArray.toList.loop, if_pos (by omega), ih _ _ (by omega), List.drop_eq_getElem_cons hi,
        hget, List.reverse_cons, List.append_assoc, List.singleton_append]

theorem toList_byteArray (b : ByteArray) : b.toList = b.data.toList := by
  rw [ByteArray.toList, toList_loop]
  rfl

theorem ofList_toUTF8_toList (s : String) : (⟨s.toUTF8.toList.toArray⟩ : ByteArray) = s.toUTF8 := by
  rw [toList_byteArray]

theorem fromUTF8_eq_some {bytes : ByteArray} {s : String} :
    String.fromUTF8? bytes = some s ↔ bytes = s.toUTF8 := by
  unfold String.fromUTF8?
  rw [String.toUTF8_eq_toByteArray]
  constructor
  · intro h
    split at h
    · obtain rfl := Option.some.inj h
      rfl
    · cases h
  · intro h
    subst h
    rw [dif_pos s.isValidUTF8]
    rfl

theorem toUTF8_toList (s : String) : s.toUTF8.toList = s.toList.flatMap String.utf8EncodeChar := by
  rw [toList_byteArray, String.toUTF8_eq_toByteArray, ← String.utf8Encode_toList, List.utf8Encode,
    List.toList_data_toByteArray]

/-- The bytes of a text determine it. -/
theorem fromUTF8_list_eq_some {bytes : List UInt8} {s : String} :
    String.fromUTF8? ⟨bytes.toArray⟩ = some s ↔ bytes = s.toUTF8.toList := by
  rw [fromUTF8_eq_some, toList_byteArray]
  constructor
  · intro h
    rw [← h]
  · intro h
    rw [h]

end Lib

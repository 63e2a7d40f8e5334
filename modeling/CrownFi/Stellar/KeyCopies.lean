import CrownFi.Stellar.KeyChecksum

/-!
# CrownFi.Stellar.KeyCopies

The decoder of account keys (`stellar_intents.rs`) and the validators of the reconciliation, the
payouts and the fulfillment, which read the same texts.
-/

namespace CrownFi

open Lib CrownFi.Api CrownFi.Stellar

/-- `validate_strkey` of the reconciliation. -/
def Commerce.Reconciliation.validateStrkey : String → UInt8 → String → Except ApiError PUnit :=
  Stellar.validateStrkey

/-- `validate_strkey` of the payouts. -/
def Payouts.validateStrkey : String → UInt8 → String → Except ApiError PUnit := Stellar.validateStrkey

/-- `validate_strkey` of the fulfillment. -/
def Commerce.Fulfillment.validateStrkey : String → UInt8 → String → Except ApiError PUnit :=
  Stellar.validateStrkey

namespace Stellar

theorem validateStrkey_eq_ok {value : String} {version : UInt8} {error : String} :
    validateStrkey value version error = .ok ⟨⟩ ↔
      ∃ key : List UInt8, key.length = 32 ∧ value = keyText version key := by
  rw [← isStrKey_iff, validateStrkey, isStrKey]
  cases strKeyBytes value with
  | none => simp
  | some d =>
      simp only [Bool.and_eq_true, decide_eq_true_eq]
      rw [guard_eq_ok, guard_eq_ok, not_not, Bool.not_eq_false]
      exact and_congr_right fun _ => and_iff_left rfl

/-- **The decoder accepts the texts of account keys**, each of them for its own key. No text that
differs in one character from an accepted one is accepted. The validators accept what the
decoder accepts. -/
theorem decodeStellarAccount_spec (value : String) :
    (∀ key, decodeStellarAccount value = .ok key ↔
      key.length = 32 ∧ value = keyText accountVersion key) ∧
    (∀ other key, decodeStellarAccount value = .ok key → decodeStellarAccount other = .ok key →
      other = value) ∧
    (∀ key i c, decodeStellarAccount value = .ok key → i < 56 → IsBase32 c → value.toList[i]? ≠ some c →
      ∃ error, decodeStellarAccount (String.ofList (value.toList.set i c)) = .error error) ∧
    (∀ version error,
      Commerce.Reconciliation.validateStrkey value version error = Payouts.validateStrkey value version error ∧
      Commerce.Fulfillment.validateStrkey value version error = Payouts.validateStrkey value version error) ∧
    (∀ error, Payouts.validateStrkey value accountVersion error = .ok ⟨⟩ ↔
      ∃ key, decodeStellarAccount value = .ok key) := by
  refine ⟨fun key => decodeStellarAccount_eq_ok, ?_, ?_, fun _ _ => ⟨rfl, rfl⟩, ?_⟩
  · intro other key h hother
    rw [(decodeStellarAccount_eq_ok.mp h).2, (decodeStellarAccount_eq_ok.mp hother).2]
  · intro key i c h hi _ hne
    cases hset : decodeStellarAccount (String.ofList (value.toList.set i c)) with
    | error error => exact ⟨error, rfl⟩
    | ok key' =>
        obtain ⟨hkey, hvalue⟩ := decodeStellarAccount_eq_ok.mp h
        obtain ⟨hkey', hvalue'⟩ := decodeStellarAccount_eq_ok.mp hset
        exact absurd (eq_of_accepted_set hi (accepted_keyText _ hkey hvalue) (accepted_keyText _ hkey' hvalue')) hne
  · intro error
    refine validateStrkey_eq_ok.trans (exists_congr fun key => ?_)
    exact decodeStellarAccount_eq_ok.symm

end Stellar

end CrownFi

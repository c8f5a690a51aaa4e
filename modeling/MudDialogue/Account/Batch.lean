import MudDialogue.Account.Credentials

/-!
# Batches of accounts

Accounts are created in batches. Those of one batch have a common base name, with a number from 1 on
behind it, and a common password.
-/

namespace MudDialogue

open Text

/-- A batch of accounts. -/
structure Batch where
  /-- What the names start with. -/
  base : String
  /-- The password of all accounts. -/
  password : Secret
  /-- How many accounts there are. -/
  count : Nat
deriving DecidableEq

namespace Batch

/-- A batch with a base name that is not blank. -/
def make (base password : String) (count : Nat) : Except Failure Batch :=
  if isBlankText base then .error (.invalidArgument "base username must not be empty")
  else .ok ⟨base, ⟨password⟩, count⟩

/-- A batch with the usual base name and password. -/
def usual (count : Nat) : Batch := ⟨"unit", ⟨"unit123"⟩, count⟩

/-- The name of the account with a given number. -/
def username (b : Batch) (number : Nat) : String := b.base ++ toString number

/-- **No two accounts have the same name.** -/
theorem username_injective (b : Batch) {m n : Nat} (h : b.username m = b.username n) : m = n := by
  have hnumber : toString m = toString n := (String.append_right_inj b.base).mp h
  have hdigits : Nat.toDigits 10 m = Nat.toDigits 10 n := by
    rw [← Nat.toList_repr, ← Nat.toList_repr]
    exact congrArg String.toList hnumber
  rw [← Nat.ofDigitChars_ten_toDigits (n := m), hdigits, Nat.ofDigitChars_ten_toDigits]

/-- The names of the first accounts, no more than `limit` of them. -/
def firstUsernames (b : Batch) (limit : Nat) : List String :=
  (List.range' 1 (min limit b.count)).map b.username

/-- The names of all accounts, in order. -/
def usernames (b : Batch) : List String := b.firstUsernames b.count

/-- The batch in words, without the password. -/
def describe (b : Batch) : String :=
  "ProvisionJob \x7b base_username: " ++ Quoted.quote b.base ++ ", password: " ++
    Secret.redacted ++ ", count: " ++ toString b.count ++ " \x7d"

end Batch

end MudDialogue

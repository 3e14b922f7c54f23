import Dexa.Lib.Dict
import Mathlib.Data.List.Induction

/-! # Books

Amounts are added to accounts.  An account holds what a journal has for it, and all accounts
together hold the journal's sum.  The rows of a table, grouped by a key and added up in each group,
are books of the same kind.
-/

namespace Dexa.Lib.Dict

variable {κ ν M : Type*} [DecidableEq κ]

section Accounts

variable [AddCommMonoid M]

/-- Add to the account `k`, which is opened if it is new. -/
def addAt (d : Dict κ M) (k : κ) (x : M) : Dict κ M := d.set k ((d.get? k).getD 0 + x)

def booked (journal : List (κ × M)) : Dict κ M := journal.foldl (fun d e => d.addAt e.1 e.2) empty

/-- What a journal has for an account. -/
def amount (journal : List (κ × M)) (k : κ) : M := ((journal.filter (·.1 = k)).map Prod.snd).sum

end Accounts

/-- `groups.setdefault(key(r), []).append(r)`, for every row `r`. -/
def groupBy (key : ν → κ) (rows : List ν) : Dict κ (List ν) :=
  rows.foldl (fun d r => d.set (key r) ((d.get? (key r)).getD [] ++ [r])) empty

end Dexa.Lib.Dict

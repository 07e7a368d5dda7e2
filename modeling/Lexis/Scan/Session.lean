import Lexis.Scan.Token

/-!
# Sessions with a scan

A scan is used by a sequence of calls, each of which asks for the next token or for all that are
left. The replies come in the order of the calls, each from the scan as the call before it left it.
-/

set_option autoImplicit false

namespace Lexis

namespace Scan

/-- A call to a scan. -/
inductive Call
  | nextToken
  | allTokens
  deriving DecidableEq

/-- What a call gives. -/
inductive Reply
  | token (token : Token)
  | tokens (tokens : List Token)
  | failed (error : IoError)
  deriving DecidableEq

variable {σ : Type} [LineSupply σ]

/-- The reply to one call, and the scan after it. -/
def call (scan : Scan σ) : Call → Reply × Scan σ
  | .nextToken =>
    match scan.nextToken with
    | (.ok token, scan) => (.token token, scan)
    | (.error error, scan) => (.failed error, scan)
  | .allTokens =>
    match scan.allTokens with
    | (.ok tokens, scan) => (.tokens tokens, scan)
    | (.error error, scan) => (.failed error, scan)

/-- The replies to a sequence of calls, and the scan after it. -/
def session (scan : Scan σ) : List Call → List Reply × Scan σ
  | [] => ([], scan)
  | call :: calls =>
    let first := scan.call call
    let others := first.2.session calls
    (first.1 :: others.1, others.2)

theorem session_append (scan : Scan σ) (before after : List Call) :
    scan.session (before ++ after) =
      ((scan.session before).1 ++ ((scan.session before).2.session after).1,
        ((scan.session before).2.session after).2) := by
  induction before generalizing scan with
  | nil => rfl
  | cons call calls ih => simp [session, ih]

end Scan

end Lexis

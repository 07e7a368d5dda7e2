import Lexis.Proofs.Scan.Calls

/-!
# Sessions as calls for tokens

A session asks now for the next token and now for all that are left. It is no more than some
number of calls for the next token: its replies gather what these calls give, and it leaves the
scan as they leave it.

* `Gathers call results reply`: what calls for the next token give makes `reply` the reply to
  `call`. All tokens are those up to the first end token, and a failure loses the ones before it.
* `call_eq_iff`, `session_eq_iff`: a scan replies with what is gathered from its calls, and with
  nothing else.
-/

set_option autoImplicit false

namespace Lexis

namespace Scan

inductive Gathers : Call → List (Except IoError Token) → Reply → Prop
  | token (token : Token) : Gathers .nextToken [.ok token] (.token token)
  | refusal (error : IoError) : Gathers .nextToken [.error error] (.failed error)
  | tokens {before : List Token} {last : Token} (hbefore : ∀ token ∈ before, token.isEof = false)
      (hlast : last.isEof = true) :
    Gathers .allTokens (before.map .ok ++ [.ok last]) (.tokens (before ++ [last]))
  /-- The tokens before a failure are lost. -/
  | loss {before : List Token} (hbefore : ∀ token ∈ before, token.isEof = false)
      (error : IoError) :
    Gathers .allTokens (before.map .ok ++ [.error error]) (.failed error)

/-- What the calls for the next token give is divided among the calls of a session. -/
inductive GathersAll : List Call → List (Except IoError Token) → List Reply → Prop
  | nil : GathersAll [] [] []
  | cons {call : Call} {calls : List Call} {results others : List (Except IoError Token)}
      {reply : Reply} {replies : List Reply} (h : Gathers call results reply)
      (hothers : GathersAll calls others replies) :
    GathersAll (call :: calls) (results ++ others) (reply :: replies)

variable {σ : Type} [LineSupply σ]

/-! ## Calls put together -/

theorem length_calls (scan : Scan σ) (n : Nat) : (scan.calls n).1.length = n := by
  induction n generalizing scan with
  | zero => rfl
  | succ n ih => rw [calls, List.length_cons, ih]

theorem calls_singleton_iff {scan after : Scan σ} {result : Except IoError Token} :
    scan.calls [result].length = ([result], after) ↔ scan.nextToken = (result, after) := by
  constructor
  · intro h
    obtain ⟨hresult, hafter⟩ := Prod.mk.inj h
    exact Prod.ext (List.singleton_inj.1 hresult) hafter
  · intro h
    simp only [List.length_singleton, calls, h]

theorem calls_append {scan mid after : Scan σ} {results others : List (Except IoError Token)}
    (h : scan.calls results.length = (results, mid))
    (hothers : mid.calls others.length = (others, after)) :
    scan.calls (results ++ others).length = (results ++ others, after) := by
  rw [List.length_append, calls_add, h, hothers]

theorem calls_concat {scan mid after : Scan σ} {results : List (Except IoError Token)}
    {last : Except IoError Token} (h : scan.calls results.length = (results, mid))
    (hlast : mid.nextToken = (last, after)) :
    scan.calls (results ++ [last]).length = (results ++ [last], after) := by
  apply calls_append h
  exact calls_singleton_iff.2 hlast

/-- The calls before the last one, and the last one. -/
theorem calls_concat_inv {scan after : Scan σ} {results : List (Except IoError Token)}
    {last : Except IoError Token}
    (h : scan.calls (results ++ [last]).length = (results ++ [last], after)) :
    ∃ mid, scan.calls results.length = (results, mid) ∧ mid.nextToken = (last, after) := by
  rw [List.length_append, List.length_singleton, calls_succ, Prod.mk.injEq] at h
  obtain ⟨hresults, hafter⟩ := h
  obtain ⟨hbefore, hlast⟩ := List.append_inj' hresults rfl
  refine ⟨(scan.calls results.length).2, Prod.ext hbefore rfl, Prod.ext ?_ hafter⟩
  exact List.singleton_inj.1 hlast

/-! ## All tokens by calls -/

/-- A run goes on behind the tokens that the first calls give. -/
theorem runFrom_of_calls {scan mid : Scan σ} {before : List Token} (read : List Token)
    (hbefore : ∀ token ∈ before, token.isEof = false)
    (h : scan.calls before.length = (before.map .ok, mid)) :
    scan.runFrom read = mid.runFrom (before.reverse ++ read) := by
  induction before generalizing scan read with
  | nil =>
    obtain ⟨_, rfl⟩ := Prod.mk.inj h
    rfl
  | cons token before ih =>
    obtain ⟨hnot, hbefore⟩ := List.forall_mem_cons.1 hbefore
    simp only [List.length_cons, calls, List.map_cons, Prod.mk.injEq, List.cons.injEq] at h
    obtain ⟨⟨htoken, hothers⟩, hmid⟩ := h
    have hnext : scan.nextToken = (.ok token, scan.nextToken.2) := Prod.ext htoken rfl
    rw [runFrom_of_token read hnext hnot, ih (token :: read) hbefore (Prod.ext hothers hmid),
      List.reverse_cons, List.append_assoc]
    rfl

theorem allTokens_of_end {scan mid after : Scan σ} {before : List Token} {last : Token}
    (hbefore : ∀ token ∈ before, token.isEof = false)
    (h : scan.calls before.length = (before.map .ok, mid))
    (hnext : mid.nextToken = (.ok last, after)) (hlast : last.isEof = true) :
    scan.allTokens = (.ok (before ++ [last]), after) := by
  have hrun : scan.run = ⟨before ++ [last], none, after⟩ := by
    rw [run, runFrom_of_calls [] hbefore h, runFrom_of_eof _ hnext hlast]
    simp
  simp only [allTokens, hrun]

theorem allTokens_of_failure {scan mid after : Scan σ} {before : List Token} {error : IoError}
    (hbefore : ∀ token ∈ before, token.isEof = false)
    (h : scan.calls before.length = (before.map .ok, mid))
    (hnext : mid.nextToken = (.error error, after)) :
    scan.allTokens = (.error error, after) := by
  have hrun : scan.run = ⟨before, some error, after⟩ := by
    rw [run, runFrom_of_calls [] hbefore h, runFrom_of_error _ hnext]
    simp
  simp only [allTokens, hrun]

/-- Some call is the first that fails or gives the end token. -/
theorem exists_calls_before_end (scan : Scan σ) :
    ∃ (before : List Token) (mid : Scan σ), (∀ token ∈ before, token.isEof = false) ∧
      scan.calls before.length = (before.map .ok, mid) ∧
      ((∃ error after, mid.nextToken = (.error error, after)) ∨
        ∃ last after, mid.nextToken = (.ok last, after) ∧ last.isEof = true) := by
  rcases hnext : scan.nextToken with ⟨result, after⟩
  cases result with
  | error error => exact ⟨[], scan, by simp, rfl, .inl ⟨error, after, hnext⟩⟩
  | ok token =>
    cases hend : token.isEof with
    | true => exact ⟨[], scan, by simp, rfl, .inr ⟨token, after, hnext, hend⟩⟩
    | false =>
      have hless := left_nextToken hnext hend
      obtain ⟨before, mid, hbefore, hcalls, hstop⟩ := exists_calls_before_end after
      refine ⟨token :: before, mid, List.forall_mem_cons.2 ⟨hend, hbefore⟩, ?_, hstop⟩
      simp only [List.length_cons, calls, hnext, hcalls, List.map_cons]
termination_by scan.left

/-! ## Replies by calls -/

theorem call_of_gathers {scan after : Scan σ} {call : Call} {reply : Reply}
    {results : List (Except IoError Token)} (h : Gathers call results reply)
    (hcalls : scan.calls results.length = (results, after)) : scan.call call = (reply, after) := by
  cases h with
  | token token => rw [Scan.call, calls_singleton_iff.1 hcalls]
  | refusal error => rw [Scan.call, calls_singleton_iff.1 hcalls]
  | tokens hbefore hlast =>
    obtain ⟨mid, hmid, hnext⟩ := calls_concat_inv hcalls
    rw [List.length_map] at hmid
    rw [Scan.call, allTokens_of_end hbefore hmid hnext hlast]
  | loss hbefore error =>
    obtain ⟨mid, hmid, hnext⟩ := calls_concat_inv hcalls
    rw [List.length_map] at hmid
    rw [Scan.call, allTokens_of_failure hbefore hmid hnext]

theorem exists_gathers (scan : Scan σ) (call : Call) :
    ∃ results reply after, Gathers call results reply ∧
      scan.calls results.length = (results, after) := by
  cases call with
  | nextToken =>
    rcases hnext : scan.nextToken with ⟨result, after⟩
    have hcalls := calls_singleton_iff.2 hnext
    cases result with
    | ok token => exact ⟨_, _, after, .token token, hcalls⟩
    | error error => exact ⟨_, _, after, .refusal error, hcalls⟩
  | allTokens =>
    obtain ⟨before, mid, hbefore, hcalls, hstop⟩ := scan.exists_calls_before_end
    have hmid : scan.calls (before.map fun token => (.ok token : Except IoError Token)).length =
        (before.map .ok, mid) := by
      rw [List.length_map]
      exact hcalls
    rcases hstop with ⟨error, after, hnext⟩ | ⟨last, after, hnext, hlast⟩
    · exact ⟨_, _, after, .loss hbefore error, calls_concat hmid hnext⟩
    · exact ⟨_, _, after, .tokens hbefore hlast, calls_concat hmid hnext⟩

theorem call_eq_iff {scan after : Scan σ} {call : Call} {reply : Reply} :
    scan.call call = (reply, after) ↔
      ∃ results, Gathers call results reply ∧ scan.calls results.length = (results, after) := by
  constructor
  · intro h
    obtain ⟨results, reply', after', hgathers, hcalls⟩ := exists_gathers scan call
    have hcall := call_of_gathers hgathers hcalls
    rw [h] at hcall
    obtain ⟨rfl, rfl⟩ := Prod.mk.inj hcall
    exact ⟨results, hgathers, hcalls⟩
  · intro h
    obtain ⟨results, hgathers, hcalls⟩ := h
    exact call_of_gathers hgathers hcalls

/-- A session is some number of calls for the next token, and its replies gather what they give. -/
theorem session_eq_iff {scan after : Scan σ} {calls : List Call} {replies : List Reply} :
    scan.session calls = (replies, after) ↔
      ∃ results, GathersAll calls results replies ∧
        scan.calls results.length = (results, after) := by
  constructor
  · intro h
    induction calls generalizing scan replies with
    | nil =>
      obtain ⟨rfl, rfl⟩ := Prod.mk.inj h
      exact ⟨[], .nil, rfl⟩
    | cons call calls ih =>
      obtain ⟨rfl, hafter⟩ := Prod.mk.inj h
      obtain ⟨results, hgathers, hcalls⟩ := call_eq_iff.1 (Prod.eta (scan.call call)).symm
      obtain ⟨others, hothers, hrest⟩ := ih (Prod.ext rfl hafter)
      exact ⟨results ++ others, .cons hgathers hothers, calls_append hcalls hrest⟩
  · intro h
    obtain ⟨results, hgathers, hcalls⟩ := h
    induction hgathers generalizing scan with
    | nil =>
      obtain ⟨_, rfl⟩ := Prod.mk.inj hcalls
      rfl
    | @cons call calls results others reply replies h _ ih =>
      rw [List.length_append, calls_add, Prod.mk.injEq] at hcalls
      obtain ⟨hresults, hafter⟩ := hcalls
      have hlength : (scan.calls results.length).1.length = results.length := length_calls ..
      obtain ⟨hfirst, hothers⟩ := List.append_inj hresults hlength
      have hcall : scan.call call = (reply, (scan.calls results.length).2) :=
        call_of_gathers h (Prod.ext hfirst rfl)
      have hsession := ih (Prod.ext hothers hafter)
      rw [session, hcall, hsession]

theorem exists_calls_session (scan : Scan σ) (calls : List Call) :
    ∃ n, (scan.session calls).2 = (scan.calls n).2 ∧
      GathersAll calls (scan.calls n).1 (scan.session calls).1 := by
  obtain ⟨results, hgathers, hcalls⟩ := session_eq_iff.1 (Prod.eta (scan.session calls)).symm
  refine ⟨results.length, ?_, ?_⟩
  · rw [hcalls]
  · rw [hcalls]
    exact hgathers

end Scan

end Lexis

import Pseudonym.Proofs.Hints
import Pseudonym.Proofs.Substitution

namespace Pseudonym

open Traversal

variable {σ : Type}

/-- A hint that is turned down: it names none of the profiles, and no profile stands in. -/
def Resolver.Unknown (r : Resolver) (hint : Value) : Prop :=
  ∃ name, normalizeHint hint = .ok (some name) ∧ r.profiles.lookup name = none ∧ r.policy = .reject

/-- A hint has no text, or it is turned down, or it leads to a profile. -/
theorem Resolver.resolve_cases (r : Resolver) (hint : Value) :
    (hint.display = none ∧ (r.resolve hint).1 = .error (.value .tooManyDigits)) ∨
      (hint.display ≠ none ∧ r.Unknown hint ∧
        ∃ text, (r.resolve hint).1 = .error (.request (.unknownHint text))) ∨
      (hint.display ≠ none ∧ ¬ r.Unknown hint ∧ ∃ profile, (r.resolve hint).1 = .ok profile) := by
  rw [resolve]
  cases hname : normalizeHint hint with
  | error e =>
      obtain ⟨hnone, rfl⟩ := normalizeHint_eq_error_iff.mp hname
      exact .inl ⟨hnone, rfl⟩
  | ok found =>
      have hdisplay : hint.display ≠ none := by
        intro hnone
        rw [normalizeHint_of_display hnone] at hname
        cases hname
      refine .inr ?_
      simp only [hdisplay, ne_eq, not_false_eq_true, true_and]
      cases found with
      | none =>
          refine .inr ⟨?_, r.default, rfl⟩
          rintro ⟨name, hsome, -⟩
          cases hname.symm.trans hsome
      | some name =>
          cases hlookup : r.profiles.lookup name with
          | some p =>
              refine .inr ⟨?_, p, by simp [hlookup]⟩
              rintro ⟨other, hsome, hnone, -⟩
              obtain rfl := Option.some.inj (Except.ok.inj (hname.symm.trans hsome))
              cases hlookup.symm.trans hnone
          | none =>
              cases hpolicy : r.policy with
              | reject => exact .inl ⟨⟨name, hname, hlookup, hpolicy⟩, _, by simp [hlookup]; rfl⟩
              | fallback =>
                  refine .inr ⟨?_, r.default, by simp [hlookup]⟩
                  rintro ⟨-, -, -, hreject⟩
                  cases hpolicy.symm.trans hreject

theorem Resolver.not_unknown_of_display {r : Resolver} {hint : Value} (h : hint.display = none) :
    ¬ r.Unknown hint := by
  rintro ⟨name, hname, -⟩
  rw [normalizeHint_of_display h] at hname
  cases hname

def Request.HasText (request : Request) : Prop := ∃ text, request.text = .text text ∧ text ≠ ""

theorem Request.hasText_iff (request : Request) :
    request.HasText ↔ ∃ text, Registry.usable? request.text = some text := by
  simp only [HasText, Registry.usable?_eq_some_iff]

namespace Redactor

def Admits (r : Redactor σ) (request : Request) : Prop :=
  request.HasText ∧ request.hint.display ≠ none ∧ ¬ r.resolver.Unknown request.hint

/-- The text of a request can be read, renamed and written again. -/
def Completes (r : Redactor σ) (parser : Parser) (request : Request) (state : σ) : Prop :=
  ∃ text profile tree code, request.text = .text text ∧
    (r.resolver.resolve request.hint).1 = .ok profile ∧ parser.tree profile text = .ok tree ∧
    (tree.walk r.supply {} state).2.failure = none ∧
    (tree.walk r.supply {} state).1.print r.supply.writable = .ok code

theorem exists_rename_iff {supply : Supply σ} {parser : Parser} {profile : Profile} {text : String}
    {state : σ} :
    (∃ done, (rename supply parser profile text state).result = .ok done) ↔
      ∃ tree code, parser.tree profile text = .ok tree ∧
        (tree.walk supply {} state).2.failure = none ∧
        (tree.walk supply {} state).1.print supply.writable = .ok code := by
  rw [rename]
  cases parser.tree profile text with
  | error e => simp
  | ok tree =>
      cases hfailure : (tree.walk supply {} state).2.failure with
      | some e => simp [hfailure]
      | none => simp [hfailure, map_eq_ok_iff]

theorem redact_cases (r : Redactor σ) (parser : Parser) (request : Request) (state : σ) :
    (¬ request.HasText ∧ (r.redact parser request state).result = .error (.request .noSource) ∧
      (r.redact parser request state).state = state) ∨
    (request.HasText ∧ request.hint.display = none ∧
      (r.redact parser request state).result = .error (.value .tooManyDigits) ∧
      (r.redact parser request state).state = state) ∨
    (request.HasText ∧ request.hint.display ≠ none ∧ r.resolver.Unknown request.hint ∧
      (∃ text, (r.redact parser request state).result = .error (.request (.unknownHint text))) ∧
      (r.redact parser request state).state = state) ∨
    ∃ text profile, request.text = .text text ∧ text ≠ "" ∧ request.hint.display ≠ none ∧
      ¬ r.resolver.Unknown request.hint ∧ (r.resolver.resolve request.hint).1 = .ok profile ∧
      (r.redact parser request state).state = (rename r.supply parser profile text state).state ∧
      ((∃ e, (rename r.supply parser profile text state).result = .error e ∧
          (r.redact parser request state).result = .error (.request .failed)) ∨
        ∃ done, (rename r.supply parser profile text state).result = .ok done ∧
          (r.redact parser request state).result = .ok
            { code := done.code
              profile := profile.name
              replaced := done.replaced
              mapping := if request.includeMapping.getD r.includeMapping then
                some done.registry.pairs else none }) := by
  rw [Request.hasText_iff]
  cases htext : Registry.usable? request.text with
  | none =>
      rw [redact, htext]
      exact .inl ⟨by simp, rfl, rfl⟩
  | some text =>
      refine .inr ?_
      rcases r.resolver.resolve_cases request.hint with
        ⟨hnone, herror⟩ | ⟨hsome, hunknown, hint, herror⟩ | ⟨hsome, hknown, profile, hprofile⟩
      · obtain ⟨hresult, hstate⟩ := r.redact_of_resolve_error parser state htext herror
        exact .inl ⟨⟨text, rfl⟩, hnone, hresult, hstate⟩
      · obtain ⟨hresult, hstate⟩ := r.redact_of_resolve_error parser state htext herror
        exact .inr (.inl ⟨⟨text, rfl⟩, hsome, hunknown, ⟨hint, hresult⟩, hstate⟩)
      · have hrequest := Registry.usable?_eq_some_iff.mp htext
        refine .inr (.inr ⟨text, profile, hrequest.1, hrequest.2, hsome, hknown, hprofile,
          r.redact_state htext hprofile, ?_⟩)
        cases hrename : (rename r.supply parser profile text state).result with
        | error e => exact .inl ⟨e, rfl, r.redact_of_rename_error htext hprofile hrename⟩
        | ok done => exact .inr ⟨done, rfl, r.redact_of_rename htext hprofile hrename⟩

theorem completes_iff {r : Redactor σ} {parser : Parser} {request : Request} {state : σ}
    {text : String} {profile : Profile} (htext : request.text = .text text)
    (hprofile : (r.resolver.resolve request.hint).1 = .ok profile) :
    r.Completes parser request state ↔
      ∃ done, (rename r.supply parser profile text state).result = .ok done := by
  rw [exists_rename_iff, Completes]
  constructor
  · rintro ⟨text', profile', tree, code, htext', hprofile', htree⟩
    obtain rfl : text = text' := Value.text.inj (htext.symm.trans htext')
    obtain rfl : profile = profile' := Except.ok.inj (hprofile.symm.trans hprofile')
    exact ⟨tree, code, htree⟩
  · rintro ⟨tree, code, htree⟩
    exact ⟨text, profile, tree, code, htext, hprofile, htree⟩

/-- A request that is admitted ends in a result or in the one error for all failures. -/
theorem redact_of_admits {r : Redactor σ} {request : Request} (h : r.Admits request)
    (parser : Parser) (state : σ) :
    (r.Completes parser request state ∧
        ∃ done, (r.redact parser request state).result = .ok done) ∨
      (¬ r.Completes parser request state ∧
        (r.redact parser request state).result = .error (.request .failed)) := by
  rcases r.redact_cases parser request state with
    ⟨hno, -⟩ | ⟨-, hnone, -⟩ | ⟨-, -, hunknown, -⟩ | ⟨text, profile, htext, -, -, -, hprofile, -, hend⟩
  · exact absurd h.1 hno
  · exact absurd hnone h.2.1
  · exact absurd hunknown h.2.2
  · rw [completes_iff htext hprofile]
    rcases hend with ⟨e, hrename, hresult⟩ | ⟨done, hrename, hresult⟩
    · exact .inr ⟨by simp [hrename], hresult⟩
    · exact .inl ⟨⟨done, hrename⟩, _, hresult⟩

theorem redact_of_display (r : Redactor σ) {request : Request} (htext : request.HasText)
    (hnone : request.hint.display = none) (parser : Parser) (state : σ) :
    (r.redact parser request state).result = .error (.value .tooManyDigits) := by
  rcases r.redact_cases parser request state with
    ⟨hno, -⟩ | ⟨-, -, hresult, -⟩ | ⟨-, hsome, -⟩ | ⟨_, _, -, -, hsome, -⟩
  · exact absurd htext hno
  · exact hresult
  · exact absurd hnone hsome
  · exact absurd hnone hsome

theorem exists_done_iff {r : Redactor σ} {request : Request} (h : r.Admits request)
    (parser : Parser) (state : σ) :
    (∃ done, (r.redact parser request state).result = .ok done) ↔
      r.Completes parser request state := by
  rcases redact_of_admits h parser state with ⟨hcompletes, hdone⟩ | ⟨hnot, hfailed⟩
  · exact ⟨fun _ => hcompletes, fun _ => hdone⟩
  · simp [hnot, hfailed]

theorem eq_failed_of_admits {r : Redactor σ} {parser : Parser} {request : Request} {state : σ}
    {e : Error} (h : r.Admits request) (he : (r.redact parser request state).result = .error e) :
    e = .request .failed := by
  rcases redact_of_admits h parser state with ⟨-, done, hdone⟩ | ⟨-, hfailed⟩
  · cases hdone.symm.trans he
  · exact Except.error.inj (he.symm.trans hfailed)

theorem admits_or (r : Redactor σ) (parser : Parser) (request : Request) (state : σ) :
    (¬ request.HasText ∧ (r.redact parser request state).result = .error (.request .noSource)) ∨
    (request.HasText ∧ request.hint.display = none ∧ ¬ r.resolver.Unknown request.hint ∧
      (r.redact parser request state).result = .error (.value .tooManyDigits)) ∨
    (request.HasText ∧ r.resolver.Unknown request.hint ∧
      ∃ text, (r.redact parser request state).result = .error (.request (.unknownHint text))) ∨
    r.Admits request := by
  rcases r.redact_cases parser request state with
    ⟨hno, hresult, -⟩ | ⟨htext, hnone, hresult, -⟩ | ⟨htext, -, hunknown, hresult, -⟩ |
      ⟨text, -, htext, hne, hsome, hknown, -⟩
  · exact .inl ⟨hno, hresult⟩
  · exact .inr (.inl ⟨htext, hnone, Resolver.not_unknown_of_display hnone, hresult⟩)
  · exact .inr (.inr (.inl ⟨htext, hunknown, hresult⟩))
  · exact .inr (.inr (.inr ⟨⟨text, htext, hne⟩, hsome, hknown⟩))

/-- How requests end. An error says that there is no text, or that the hint is not known, or else it
is the same for all that can go wrong, unless the hint is a number with too many digits: that is an
error of its own. -/
theorem redact_outcome (r : Redactor σ) (parser : Parser) (request : Request) (state : σ) :
    ((∃ message, (r.redact parser request state).result =
        .error (.request (.emptyInput message))) ↔ ¬ request.HasText) ∧
    (request.HasText →
      ((∃ hint, (r.redact parser request state).result = .error (.request (.unknownHint hint))) ↔
        r.resolver.Unknown request.hint) ∧
      ((r.redact parser request state).result = .error (.value .tooManyDigits) ↔
        request.hint.display = none)) ∧
    (r.Admits request →
      ((∃ done, (r.redact parser request state).result = .ok done) ↔
        r.Completes parser request state) ∧
      (¬ r.Completes parser request state →
        (r.redact parser request state).result = .error (.request .failed))) ∧
    (RequestError.failed.message = "Failed to redact source code" ∧
      RequestError.failed.status = 500) ∧
    (∀ e, (r.redact parser request state).result = .error e →
      e = .request .noSource ∨ (∃ hint, e = .request (.unknownHint hint)) ∨ e = .request .failed ∨
        request.hint.display = none ∧ e = .value .tooManyDigits) ∧
    ∀ (τ : Type) (r' : Redactor τ) (parser' : Parser) (request' : Request) (state' : τ) (e e' : Error),
      r.Admits request → r'.Admits request' → (r.redact parser request state).result = .error e →
        (r'.redact parser' request' state').result = .error e' → e = e' := by
  have hcases := r.admits_or parser request state
  refine ⟨?_, fun htext => ⟨?_, ?_⟩, ?_, ⟨rfl, rfl⟩, ?_, ?_⟩
  · rcases hcases with ⟨hno, hresult⟩ | ⟨htext, -, -, hresult⟩ | ⟨htext, -, _, hresult⟩ | hadmits
    · exact ⟨fun _ => hno, fun _ => ⟨_, hresult⟩⟩
    · simp [htext, hresult]
    · simp [htext, hresult]
    · refine ⟨fun hend => ?_, fun hno => absurd hadmits.1 hno⟩
      obtain ⟨message, he⟩ := hend
      cases eq_failed_of_admits hadmits he
  · rcases hcases with ⟨hno, -⟩ | ⟨-, -, hknown, hresult⟩ | ⟨-, hunknown, hresult⟩ | hadmits
    · exact absurd htext hno
    · simp [hknown, hresult]
    · exact ⟨fun _ => hunknown, fun _ => hresult⟩
    · refine ⟨fun hend => ?_, fun hunknown => absurd hunknown hadmits.2.2⟩
      obtain ⟨hint, he⟩ := hend
      cases eq_failed_of_admits hadmits he
  · rcases hcases with ⟨hno, -⟩ | ⟨-, hnone, -, hresult⟩ | ⟨-, hunknown, _, hresult⟩ | hadmits
    · exact absurd htext hno
    · exact ⟨fun _ => hnone, fun _ => hresult⟩
    · refine ⟨fun he => ?_, fun hnone => absurd hunknown (Resolver.not_unknown_of_display hnone)⟩
      cases hresult.symm.trans he
    · refine ⟨fun he => ?_, fun hnone => absurd hnone hadmits.2.1⟩
      cases eq_failed_of_admits hadmits he
  · intro hadmits
    refine ⟨exists_done_iff hadmits parser state, fun hnot => ?_⟩
    rcases redact_of_admits hadmits parser state with ⟨hcompletes, -⟩ | ⟨-, hfailed⟩
    · exact absurd hcompletes hnot
    · exact hfailed
  · intro e he
    rcases hcases with ⟨-, hresult⟩ | ⟨-, hnone, -, hresult⟩ | ⟨-, -, _, hresult⟩ | hadmits
    · exact .inl (Except.error.inj (he.symm.trans hresult))
    · exact .inr (.inr (.inr ⟨hnone, Except.error.inj (he.symm.trans hresult)⟩))
    · exact .inr (.inl ⟨_, Except.error.inj (he.symm.trans hresult)⟩)
    · exact .inr (.inr (.inl (eq_failed_of_admits hadmits he)))
  · intro τ r' parser' request' state' e e' hadmits hadmits' he he'
    rw [eq_failed_of_admits hadmits he, eq_failed_of_admits hadmits' he']

/-- A request whose hint is a number of more than 4300 digits. -/
def overlong : Request := ⟨.text "let a = 1;", .int (16 ^ 3600), some true⟩

/-- The hint names no profile, and yet the error does not say so. -/
theorem redact_overlong :
    overlong.HasText ∧ ¬ Reading.numberedRedactor.resolver.Unknown overlong.hint ∧
      (Reading.numberedRedactor.redact (fun _ _ => .ok (Reading.assignment 1 1)) overlong 0).result =
        .error (.value .tooManyDigits) := by
  have hdisplay : overlong.hint.display = none :=
    Value.display_int_eq_none_iff.mpr (by decide +kernel)
  have htext : overlong.HasText := ⟨"let a = 1;", rfl, by decide⟩
  rcases Reading.numberedRedactor.admits_or (fun _ _ => .ok (Reading.assignment 1 1)) overlong 0 with
    ⟨hno, -⟩ | ⟨-, -, hknown, hresult⟩ | ⟨-, hunknown, -⟩ | hadmits
  · exact absurd htext hno
  · exact ⟨htext, hknown, hresult⟩
  · exact absurd hunknown (Resolver.not_unknown_of_display hdisplay)
  · exact absurd hdisplay hadmits.2.1

/-- A supply that gives one name and then fails. -/
def singleSupply : Supply Nat where
  draw n := (if n = 0 then .ok "sub" else .error .exhausted, n + 1)
  strategy := "single"
  description := "single"

def singleRedactor : Redactor Nat := { Reading.numberedRedactor with supply := singleSupply }

/-- The supply fails in the middle of the walk, at the second name. -/
theorem redact_single :
    (singleRedactor.redact (fun _ _ => .ok (Reading.assignment 1 1))
      ⟨.text "a=b.#a", .null, none⟩ 0).result = .error (.request .failed) := by
  have hadmits : singleRedactor.Admits ⟨.text "a=b.#a", .null, none⟩ :=
    ⟨⟨"a=b.#a", rfl, by decide⟩, Option.some_ne_none _, fun ⟨_, hname, _⟩ => by cases hname⟩
  refine ((redact_outcome singleRedactor _ _ 0).2.2.1 hadmits).2 ?_
  rintro ⟨text, profile, tree, code, htext, hprofile, htree, hwalk, -⟩
  obtain rfl := Value.text.inj htext
  obtain rfl := Except.ok.inj hprofile
  obtain rfl := Except.ok.inj (Reading.short.tree_eq.symm.trans htree)
  have hfailure : (Tree.walk ⟨Reading.short.node, Reading.short.source⟩ singleSupply {} 0).2.failure =
      some .exhausted := rfl
  cases hfailure.symm.trans hwalk

end Redactor

end Pseudonym

import MusicComparer.Api.Failure

/-!
# What a failed search tells the browser

The error callback of `search`, `clientside.js:109–119`. It reads `x.responseJSON.message`; jQuery
sets `responseJSON` to the parsed text of a JSON body, and not at all for a page.
-/

namespace MusicComparer.Client

open MusicComparer.Js MusicComparer.Upstream MusicComparer.Api

variable {ν : Type} [JsNumber ν]

/-- `x.responseJSON`. -/
def responseJSON (x : HttpResponse ν) : Val ν :=
  match x.body with
  | .json j => Json.parse j.stringify
  | .html => none

/-- The error callback: the message that it passes to `$("#loading").text`. -/
def errorCallback (x : HttpResponse ν) : Except (JsError ν) (Val ν) :=
  (responseJSON x).get (js "message")

/-- A body arrives as it is reloaded. -/
private theorem errorCallback_json {x : HttpResponse ν} {j : Json ν} (hx : x.body = .json j)
    (hj : j.WF) : errorCallback x = Val.get (some j.reload) (js "message") := by
  rw [errorCallback, responseJSON, hx]
  exact congrArg (Val.get · _) (Json.parse_stringify hj)

private theorem errorCallback_obj {x : HttpResponse ν} {ps : Properties ν}
    (hx : x.body = .json (.obj ps)) (hps : (Json.obj ps).WF) :
    errorCallback x = .ok ((Json.lookup ps (js "message")).map Json.reload) := by
  rw [errorCallback_json hx hps, Json.reload, Val.get, Json.lookup_reloadProperties]

/-- Only an object has a `message`. -/
private theorem obj_of_get_message {j v : Json ν}
    (h : Val.get (some j.reload) (js "message") = .ok (some v)) : ∃ ps, j = .obj ps := by
  have hindex : arrayIndex? (js "message") = none := by decide
  have hlength : js "message" ≠ js "length" := by decide
  cases j with
  | null => cases h
  | bool b => cases h
  | num n =>
    rw [Json.reload] at h
    split at h <;> cases h
  | str s =>
    rw [Json.reload, Val.get, hindex] at h
    simp [hlength] at h
  | arr xs =>
    rw [Json.reload, Val.get, hindex] at h
    simp [hlength] at h
  | obj ps => exact ⟨ps, rfl⟩

private theorem str_of_reload {j : Json ν} {m : JsString} (h : j.reload = .str m) : j = .str m := by
  cases j with
  | null => cases h
  | bool b => cases h
  | num n =>
    rw [Json.reload] at h
    split at h <;> cases h
  | str s => exact h
  | arr xs => cases h
  | obj ps => cases h

/-- The callback of an error status has a message to show exactly when the response has the
shape. -/
theorem errorCallback_eq_str_iff {x : HttpResponse ν} (hstatus : 400 ≤ x.status)
    (hwf : ∀ j, x.body = .json j → j.WF) :
    (∃ m, errorCallback x = .ok (some (.str m))) ↔ ErrorShape x := by
  constructor
  · rintro ⟨m, hm⟩
    refine ⟨hstatus, ?_⟩
    cases hbody : x.body with
    | html =>
      rw [errorCallback, responseJSON, hbody] at hm
      cases hm
    | json j =>
      have hj := hwf j hbody
      obtain ⟨ps, rfl⟩ := obj_of_get_message ((errorCallback_json hbody hj).symm.trans hm)
      rw [errorCallback_obj hbody hj] at hm
      obtain ⟨v, hv, he⟩ := Option.map_eq_some_iff.mp (Except.ok.inj hm)
      exact ⟨ps, m, rfl, hv.trans (congrArg some (str_of_reload he))⟩
  · rintro ⟨-, ps, m, hbody, hm⟩
    refine ⟨m, ?_⟩
    rw [errorCallback_obj hbody (hwf _ hbody), hm]
    rfl

/-- No failing search gets a message shown: the callback throws on a page, and without a `message`
it shows nothing. -/
theorem errorCallback_of_failing {lower : JsString → JsString} {keys : ApiKeys}
    {request : Request ν} {redis : JsString → Except (JsError ν) (Option JsString)}
    {query : JsString} (h : Failing lower keys request redis query) :
    ∃ x, dispatch (search2Route lower keys request redis query) = some x ∧
      (errorCallback x = .error .typeError ∨ errorCallback x = .ok none) := by
  rcases h with hq | ⟨e, he, hfails⟩
  · exact ⟨_, (dispatch_of_blank lower keys request redis hq).1, Or.inl rfl⟩
  · refine ⟨_, dispatch_of_lookupFails lower keys request redis hfails he, Or.inr ?_⟩
    rw [errorCallback_obj rfl e.wf, e.no_message]
    rfl

end MusicComparer.Client

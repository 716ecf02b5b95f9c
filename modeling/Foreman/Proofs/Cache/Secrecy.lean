import Foreman.Proofs.Cache.Passwords

namespace Foreman.CacheConf

structure View where
  result : Except Failure Unit
  events : List Event
  description : List (Text × Text)
  text : Text

-- What is seen of a row of calls. One that is rejected does not end the row: the next one goes on
-- with what it left.
def views (conf : CacheConf) : List (List (Text × Text)) → List View
  | [] => []
  | entries :: rest =>
    let after := configure entries conf
    ⟨after.result, after.events, after.state.description, after.state.text⟩ ::
      after.state.views rest

variable {a b : CacheConf}

theorem Twin.description_eq (h : a.Twin b) : a.description = b.description := by
  cases h with
  | same => rfl
  | http push enabled own hp hq =>
    simp only [description, tag, ownDescription, httpDescription,
      List.isEmpty_eq_false_iff.mpr hp, List.isEmpty_eq_false_iff.mpr hq]

theorem Twin.text_eq (h : a.Twin b) : a.text = b.text := by
  rw [text, text, h.description_eq]

theorem Twin.configure {entries entries' : List (Text × Text)} (h : a.Twin b)
    (hentries : List.Forall₂ EntryTwin entries entries') :
    (CacheConf.configure entries a).result = (CacheConf.configure entries' b).result ∧
      (CacheConf.configure entries a).events = (CacheConf.configure entries' b).events ∧
      (CacheConf.configure entries a).state.Twin (CacheConf.configure entries' b).state := by
  have hafter := twin_configure hentries a b h
  exact ⟨hafter.result_eq_of_unit, hafter.events, hafter.state⟩

-- The induction is on the calls. What carries it is that they leave twins, whether or not they fail.
theorem Twin.views_eq {lists lists' : List (List (Text × Text))} (h : a.Twin b)
    (hlists : List.Forall₂ (List.Forall₂ EntryTwin) lists lists') :
    a.views lists = b.views lists' := by
  induction hlists generalizing a b with
  | nil => rfl
  | cons hentries _ ih =>
    obtain ⟨hresult, hevents, hleft⟩ := h.configure hentries
    rw [views, views, hresult, hevents, hleft.description_eq, hleft.text_eq, ih hleft]

-- Two rows of calls that differ in nothing but their passwords, none of which is empty, look the same
-- call by call, whether the calls are accepted or rejected and whatever they start from.
theorem passwords_unseen (conf : CacheConf) {lists lists' : List (List (Text × Text))}
    (hlists : List.Forall₂ (List.Forall₂ EntryTwin) lists lists') :
    conf.views lists = conf.views lists' :=
  (Twin.same conf).views_eq hlists

-- That there is a password is seen.
example : CacheConf.description { settings := .http { password := "x" } } ≠
    CacheConf.description { settings := .http {} } := by decide

-- Each of two calls gives a password. The first one is rejected for want of a user, in the same words
-- for all passwords.
theorem passwords_unseen_by_http :
    ∃ fresh : CacheConf, make .http = .ok fresh ∧
      ∃ lists lists' : List (List (Text × Text)),
        lists = ([[("url", "https://h"), ("password", "a")],
          [("user", "me"), ("password", "b")]] : List (List (Text × Text))) ∧
        lists' = ([[("url", "https://h"), ("password", "secret")],
          [("user", "me"), ("password", "hidden")]] : List (List (Text × Text))) ∧
        List.Forall₂ (List.Forall₂ EntryTwin) lists lists' ∧
        fresh.views lists = fresh.views lists' ∧
        (fresh.views lists).map View.result =
          [.error (.plain "user and password must be provided together"), .ok ()] := by
  let lists : List (List (Text × Text)) := [[("url", "https://h"), ("password", "a")],
    [("user", "me"), ("password", "b")]]
  let lists' : List (List (Text × Text)) := [[("url", "https://h"), ("password", "secret")],
    [("user", "me"), ("password", "hidden")]]
  have hlists : List.Forall₂ (List.Forall₂ EntryTwin) lists lists' :=
    .cons (.cons (.same _) (.cons (.password (by decide) (by decide)) .nil))
      (.cons (.cons (.same _) (.cons (.password (by decide) (by decide)) .nil)) .nil)
  exact ⟨_, rfl, lists, lists', rfl, rfl, hlists, passwords_unseen _ hlists, rfl⟩

end Foreman.CacheConf

import OpcSession.Credentials

/-!
# Under which policy a user name is presented

A user name can be presented under a token policy for user names that asks for no security, by
its own URI, or by that of the endpoint where it has none.  An endpoint may offer several
policies for user names.  Credentials look at the first of these only: if that will do, they
answer to it, and if it will not, they are refused, whatever is offered behind it.

* `SecurityPolicy.ofUri?_eq_some_iff` — policies and their URIs;
* `EndpointDescription.TakesUserNames` — a policy under which a user name can be presented;
* `Credentials.token_of_takes`, `Credentials.refused_of_not_takes` — what comes of the first
  policy for user names;
* `Credentials.answer_to_first_policy` — what comes of an endpoint;
* `Credentials.policy_passed_over` — a policy that would have done.
-/

namespace OpcSession

/-! ## Policies and their URIs -/

namespace SecurityPolicy

theorem uri_injective {p q : SecurityPolicy} (h : p.uri = q.uri) : p = q := by
  revert h
  cases p <;> cases q <;> decide

theorem mem_all (p : SecurityPolicy) : p ∈ all := by
  cases p <;> decide

/-- A URI stands for the policy whose URI it is, and for no other. -/
theorem ofUri?_eq_some_iff {uri : String} {p : SecurityPolicy} :
    ofUri? uri = some p ↔ uri = p.uri := by
  constructor
  · intro hfound
    have hsame := List.find?_some hfound
    simp only [decide_eq_true_eq] at hsame
    exact hsame.symm
  · rintro rfl
    cases hfound : ofUri? p.uri with
    | none =>
        have hother := List.find?_eq_none.mp hfound p (mem_all p)
        simp at hother
    | some q =>
        have hsame := List.find?_some hfound
        simp only [decide_eq_true_eq] at hsame
        rw [uri_injective hsame]

/-- A URI is unknown just if no policy has it. -/
theorem ofUri?_eq_none_iff {uri : String} :
    ofUri? uri = Option.none ↔ ∀ p : SecurityPolicy, uri ≠ p.uri := by
  rw [Option.eq_none_iff_forall_ne_some]
  exact forall_congr' fun p => not_congr ofUri?_eq_some_iff

/-- Every policy asks for signatures, except for the one that is none, under
which there is nothing to sign with. -/
theorem signatureUri_eq_none_iff {p : SecurityPolicy} :
    p.signatureUri = Option.none ↔ p = none := by
  cases p <;> simp [signatureUri]

end SecurityPolicy

/-! ## Policies of an endpoint -/

/-- A user name can be presented under a token policy: the policy is for user
names, and asks for no security, by its own URI, or by that of the endpoint
where it has none. -/
def EndpointDescription.TakesUserNames (e : EndpointDescription) (t : UserTokenPolicy) : Prop :=
  t.tokenType = .userName ∧
    (t.securityPolicyUri = some SecurityPolicy.none.uri ∨
      (t.securityPolicyUri = none ∨ t.securityPolicyUri = some "") ∧
        e.securityPolicyUri = SecurityPolicy.none.uri)

instance (e : EndpointDescription) (t : UserTokenPolicy) : Decidable (e.TakesUserNames t) := by
  unfold EndpointDescription.TakesUserNames
  infer_instance

namespace Credentials

variable {e : EndpointDescription} {t : UserTokenPolicy} {name password : String}

/-- What protects a token is no security: by the URI of its policy, or of the
endpoint. -/
theorem protectionUri_eq_none_iff :
    protectionUri e t = SecurityPolicy.none.uri ↔
      t.securityPolicyUri = some SecurityPolicy.none.uri ∨
        (t.securityPolicyUri = none ∨ t.securityPolicyUri = some "") ∧
          e.securityPolicyUri = SecurityPolicy.none.uri := by
  have hnamed : SecurityPolicy.none.uri ≠ "" := by decide
  unfold protectionUri
  cases hown : t.securityPolicyUri with
  | none => simp
  | some uri =>
      by_cases hempty : uri = ""
      · subst hempty
        simp [hnamed.symm]
      · simp [hempty]

/-- **A user name is presented under the first policy for user names** if it
can be. -/
theorem token_of_takes (hfirst : e.tokenPolicy? .userName = some t) (htakes : e.TakesUserNames t) :
    (userName name password).token e =
      .ok (.userName (t.policyId.getD "") name (.of password.toUTF8.toList) none, {}) := by
  have hplain := SecurityPolicy.ofUri?_eq_some_iff.mpr (protectionUri_eq_none_iff.mpr htakes.2)
  simp only [token, hfirst, hplain]

/-- **A user name is not presented under any other policy.**  An error is
returned that says why, and no token is made. -/
theorem refused_of_not_takes
    (hunfit : ∀ t, e.tokenPolicy? .userName = some t → ¬ e.TakesUserNames t) :
    ∃ text, (userName name password).token e = .error (.identity text) := by
  unfold token
  dsimp only
  cases hfirst : e.tokenPolicy? .userName with
  | none => exact ⟨_, rfl⟩
  | some t =>
      have hkind : t.tokenType = .userName := by simpa using List.find?_some hfirst
      dsimp only
      cases hknown : SecurityPolicy.ofUri? (protectionUri e t) with
      | none => exact ⟨_, rfl⟩
      | some p =>
          cases p with
          | none =>
              have hplain : protectionUri e t = SecurityPolicy.none.uri :=
                SecurityPolicy.ofUri?_eq_some_iff.mp hknown
              exact absurd ⟨hkind, protectionUri_eq_none_iff.mp hplain⟩ (hunfit t hfirst)
          | _ => exact ⟨_, rfl⟩

/-- Of two places in a list one comes first, unless they are the same. -/
theorem place_cases {α : Type} {before before' after after' : List α} {x y : α}
    (hsame : before ++ x :: after = before' ++ y :: after') :
    x ∈ before' ∨ x = y ∨ y ∈ before := by
  rcases List.append_eq_append_iff.mp hsame with ⟨more, rfl, hrest⟩ | ⟨more, rfl, hrest⟩
  · cases more with
    | nil => exact .inr (.inl (List.cons.inj hrest).1)
    | cons z more =>
        obtain rfl := (List.cons.inj hrest).1
        exact .inl (List.mem_append_right _ List.mem_cons_self)
  · cases more with
    | nil => exact .inr (.inl (List.cons.inj hrest).1.symm)
    | cons z more =>
        obtain rfl := (List.cons.inj hrest).1
        exact .inr (.inr (List.mem_append_right _ List.mem_cons_self))

/-- **What comes of a user name at an endpoint**, whatever policies that
offers, in whatever order.  It is presented under a policy under which it can
be, the first of all for user names; or it is refused, and then each policy
under which it could be presented comes behind one for user names under which
it cannot. -/
theorem answer_to_first_policy (e : EndpointDescription) (name password : String) :
    (∃ before t after, e.userIdentityTokens = before ++ t :: after ∧
        (∀ t' ∈ before, t'.tokenType ≠ .userName) ∧ e.TakesUserNames t ∧
        (userName name password).token e =
          .ok (.userName (t.policyId.getD "") name (.of password.toUTF8.toList) none, {})) ∨
      (∀ before t after, e.userIdentityTokens = before ++ t :: after → e.TakesUserNames t →
          ∃ t' ∈ before, t'.tokenType = .userName ∧ ¬ e.TakesUserNames t') ∧
        ∃ text, (userName name password).token e = .error (.identity text) := by
  by_cases hfit : ∃ t, e.tokenPolicy? .userName = some t ∧ e.TakesUserNames t
  · obtain ⟨t, hfirst, htakes⟩ := hfit
    obtain ⟨-, before, after, hsplit, hothers⟩ := List.find?_eq_some_iff_append.mp hfirst
    refine .inl ⟨before, t, after, hsplit, fun t' ht' => ?_, htakes, token_of_takes hfirst htakes⟩
    simpa using hothers t' ht'
  · have hunfit : ∀ t, e.tokenPolicy? .userName = some t → ¬ e.TakesUserNames t :=
      fun t hfirst htakes => hfit ⟨t, hfirst, htakes⟩
    refine .inr ⟨fun before t after hsplit htakes => ?_, refused_of_not_takes hunfit⟩
    cases hfound : e.tokenPolicy? .userName with
    | none =>
        have hmem : t ∈ e.userIdentityTokens := hsplit ▸ List.mem_append_right _ List.mem_cons_self
        have hother := List.find?_eq_none.mp hfound t hmem
        exact absurd htakes.1 (by simpa using hother)
    | some first =>
        obtain ⟨hkind, before', after', hsplit', hothers⟩ := List.find?_eq_some_iff_append.mp hfound
        have hkind : first.tokenType = .userName := by simpa using hkind
        rcases place_cases (hsplit'.symm.trans hsplit) with hearlier | rfl | hlater
        · exact ⟨first, hearlier, hkind, hunfit first hfound⟩
        · exact absurd htakes (hunfit first hfound)
        · exact absurd htakes.1 (by simpa using hothers t hlater)

/-- An endpoint that takes user names with encrypted passwords, and with plain
ones. -/
def twoPolicies : EndpointDescription :=
  { EndpointDescription.unsecured "plant" with
    userIdentityTokens :=
      [{ policyId := some "encrypted", tokenType := .userName,
         securityPolicyUri := some SecurityPolicy.basic256Sha256.uri },
       { policyId := some "plain", tokenType := .userName }] }

/-- **A policy may be passed over.**  It is not so that a user name is refused
only where it can be presented under none of the policies: here it is for the
policy that comes first. -/
theorem policy_passed_over :
    ¬ ∀ (e : EndpointDescription) (name password : String),
      (∃ text, (userName name password).token e = .error (.identity text)) →
        ∀ t ∈ e.userIdentityTokens, ¬ e.TakesUserNames t := by
  intro hclaim
  have hrefused : (userName "operator" "sesame").token twoPolicies =
      .error (.identity "password encryption for Basic256Sha256 is not supported") := by rfl
  refine hclaim twoPolicies _ _ ⟨_, hrefused⟩ { policyId := some "plain", tokenType := .userName }
    (by simp [twoPolicies]) (by decide)

end Credentials
end OpcSession

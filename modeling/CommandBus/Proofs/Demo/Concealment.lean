import CommandBus.Proofs.Demo.Building
import CommandBus.Proofs.User.Reading

/-!
# Failed authentication tells nothing

There are many ways not to be somebody: no credentials, a name that no user has, a password of
somebody else, half of the two, a header that bears nothing, a token that is forged or out of its
window.  A request for a command that asks for its caller is answered the same in all of them,
and so is a login of the application with a name and a password that do not go together.

## Key results

- `login_refused`: how a login is answered that no configured user matches
- `failed_authentication_concealed`: two failed attempts are answered the same
-/

namespace CommandBus

open UserDirectory

namespace Dispatcher

/-- A request for a command whose caller is not found, in a state that the dispatcher gets
    into. -/
structure Unidentified {σ : Type} (d : Dispatcher σ) (a : Authenticator σ) (c : Command σ)
    (freshId : String) (request : Request) (r : Runtime σ) : Prop where
  reached : d.Reached r
  resolved : d.registry.resolve request.command = .ok c
  nobody : ∀ i, (a (request.context (request.id.getD freshId)) r.world).1 ≠ .ok (some i)

/-- Two requests with the same version and the same id, whose callers are not found, are answered
    the same, whatever was done in the meantime. -/
theorem Unidentified.handle_eq {σ : Type} {d : Dispatcher σ} {a : Authenticator σ}
    {declared : TypeKey → Declaration} (h : d.DeclaredBy declared) (ha : d.authenticator = some a)
    {c : Command σ} (hasks : Access.asksCaller c.access = true) {request other : Request}
    (hsame : other.version = request.version) {freshId freshId' : String}
    (hid : request.id.getD freshId = other.id.getD freshId') {r r' : Runtime σ}
    (hrequest : d.Unidentified a c freshId request r)
    (hother : d.Unidentified a c freshId' other r') :
    (d.handle freshId request r).1 = (d.handle freshId' other r').1 := by
  by_cases hversion : request.version = d.settings.version
  -- both requests fail in the same place with nothing but the id in the answer
  · have hversion' : other.version = d.settings.version := hsame.trans hversion
    rw [handle_of_unauthenticated h ha hrequest.reached hversion hrequest.resolved hasks
        hrequest.nobody,
      handle_of_unauthenticated h ha hother.reached hversion' hother.resolved hasks hother.nobody,
      hid]
  · -- a wrong version is told before anything else is looked at
    simp only [handle, hsame, if_neg hversion, hid]

end Dispatcher

namespace Demo

open Dispatcher

variable {settings : AppSettings} {provider : TokenProvider} {d : Dispatcher Instant}

/-- A request for a login whose parameters can be bound, to a name and a password that no
    configured user has. -/
structure VainLogin (settings : AppSettings) (d : Dispatcher Instant) (request : Request)
    (r : Runtime Instant) : Prop where
  reached : d.Reached r
  version : request.version = settings.dispatcher.version
  resolved : ∃ c, d.registry.resolve request.command = .ok c ∧ c.name = "app.auth.Login"
  unmatched : ∃ form, loginForm.bind d.service (Parameters.ofJson request.members).source {} =
      (form, .ok ()) ∧
    ∀ u, LastOf settings.users form.username u → u.accepts form.password = false

/-- A form that no user matches is for nobody, be it that there is no user of the name or that
    the user has another password. -/
theorem loginUser?_eq_none {users : List UserRecord} {form : LoginForm}
    (h : ∀ u, LastOf users form.username u → u.accepts form.password = false) :
    loginUser? (ofUsers users) form = none := by
  rw [loginUser?, Option.filter_eq_none_iff]
  intro u hu
  rw [h u (find?_ofUsers_eq_some_iff.1 hu)]
  exact Bool.false_ne_true

/-- A form that no user matches ends the login with a refusal. -/
private theorem invoke_login {types : Typing} {users : List UserRecord}
    (hc : types.Describes (login provider (ofUsers users))) {s : Conversion.Service}
    {params : Parameters} {form : LoginForm}
    (hbind : loginForm.bind s params.source {} = (form, .ok ()))
    (hunmatched : ∀ u, LastOf users form.username u → u.accepts form.password = false)
    (ctx : Context) {r : Runtime Instant} (hr : types.Faithful r) :
    ((login provider (ofUsers users)).invoke s params ctx r).result =
      .error (.accessDenied ⟨"app.auth.Login", .unauthenticated⟩) := by
  have hbound : (login provider (ofUsers users)).bound s params r = .ok form := by
    have hlogin : (login provider (ofUsers users)).parameters.bind s params.source
        ((login provider (ofUsers users)).create r.world).1 = (form, .ok ()) := hbind
    rw [Command.bound_of_faithful hc s params hr, hlogin]
    rfl
  -- the body finds nobody to make a token for
  have hrun : (login provider (ofUsers users)).execute form ctx
      ((login provider (ofUsers users)).prepared s params r).world =
        failed ctx ((login provider (ofUsers users)).prepared s params r).world
          (.denied ⟨"app.auth.Login", .unauthenticated⟩) := by
    simp only [login, loginUser?_eq_none hunmatched]
  rw [Command.invoke_eq, hbound]
  simp only [Command.run, hrun]
  rfl

/-- A login that no user matches is refused, and the refusal tells no more than that. -/
theorem login_refused (hd : App.build settings = .ok d) {request : Request}
    {r : Runtime Instant} (h : VainLogin settings d request r) (freshId : String) :
    (d.handle freshId request r).1 =
      .failure (request.id.getD freshId) (.accessDenied ⟨"app.auth.Login", .unauthenticated⟩) := by
  obtain ⟨provider, hp⟩ := App.provider_of_build hd
  have hbuilt := App.blueprint_of_build hd hp
  have htyped := App.typed hbuilt
  obtain ⟨c, hc, hname⟩ := h.resolved
  obtain ⟨form, hbind, hunmatched⟩ := h.unmatched
  have hmem := CommandRegistry.mem_commands_of_resolve hc
  obtain rfl : c = login provider (ofUsers settings.users) :=
    App.eq_of_name_eq hbuilt hmem (by simp [commands]) hname
  have hversion : request.version = d.settings.version := by
    rw [h.version, App.settings_eq hbuilt]
  have hdescribes := htyped.commands _ hmem
  have hfaithful := typed_of_reached htyped h.reached
  -- everybody may log in, so that the command is what decides
  have hdecides := AccessRecords.decides_of_faithful hfaithful.access hdescribes.declaration
    (App.callers provider (ofUsers settings.users)).authenticate
    (request.context (request.id.getD freshId)) r.world
  have hpassed := hdecides.passes.2 trivial
  rw [handle_of_resolve hversion hc, App.chain_of_passed hbuilt hpassed,
    invoke_login hdescribes hbind hunmatched _ (hfaithful.checked hdescribes _ _)]
  rfl

/-- Failed authentication tells nothing.  In any dispatcher with access control, two requests for
    a command that asks for its caller, with the same id and other credentials, are answered the
    same if the caller of neither is found.  In the application, two logins with the same id are
    answered the same if the name and the password of neither are those of a configured user. -/
theorem failed_authentication_concealed :
    (∀ {σ : Type} {d : Dispatcher σ} {a : Authenticator σ} {declared : TypeKey → Declaration}
      {c : Command σ}, d.authenticator = some a → d.DeclaredBy declared →
      Access.asksCaller c.access = true →
      ∀ {request : Request} {credentials : Option Credentials} {freshId freshId' : String}
        {r r' : Runtime σ}, request.id.getD freshId = request.id.getD freshId' →
        d.Unidentified a c freshId request r →
        d.Unidentified a c freshId' { request with credentials := credentials } r' →
        (d.handle freshId request r).1 =
          (d.handle freshId' { request with credentials := credentials } r').1) ∧
    ∀ {settings : AppSettings} {d : Dispatcher Instant}, App.build settings = .ok d →
      ∀ {request other : Request} {freshId freshId' : String} {r r' : Runtime Instant},
        request.id.getD freshId = other.id.getD freshId' →
        VainLogin settings d request r → VainLogin settings d other r' →
        (d.handle freshId request r).1 = (d.handle freshId' other r').1 := by
  constructor
  · intro σ d a declared c ha h hasks request credentials freshId freshId' r r' hid hrequest hother
    -- the two requests ask for one command with one version
    have hsame : ({ request with credentials := credentials } : Request).version =
        request.version := rfl
    exact hrequest.handle_eq h ha hasks hsame hid hother
  · intro settings d hd request other freshId freshId' r r' hid hrequest hother
    -- either login ends in the one refusal that names nobody
    rw [login_refused hd hrequest, login_refused hd hother, hid]

/-- A caller without credentials and one with a wrong password are told the same when they ask
    who they are, and so are a login with a name that no user has and one with a wrong
    password. -/
theorem failed_authentication_concealed_ann :
    let ann := UserRecord.make (.replicate 16 0) "ann" "pw" (AuthoritySet.ofList ["ROLE_USER"])
    let settings : AppSettings := ⟨{}, ⟨"s", 60, 3600⟩, [ann]⟩
    let asking : Request := { id := some "1", version := "1", command := "app.WhoAmI" }
    let guessing : Request := { asking with credentials := some (credentials "ann" "guess") }
    let login (name : String) : Request :=
      { id := some "2", version := "1", command := "app.auth.Login",
        parameters := .ofList
          [("password", .ofJson (.string "guess")), ("username", .ofJson (.string name))] }
    let r : Runtime Instant := { world := Instant.epoch }
    ∃ d, App.build settings = .ok d ∧
      (d.handle "" asking r).1 = (d.handle "" guessing r).1 ∧
      (d.handle "" (login "bob") r).1 = (d.handle "" (login "ann") r).1 := by
  intro ann settings asking guessing login r
  let provider : TokenProvider := ⟨Bytes.ofText "s", 60, 3600⟩
  have hprovider : TokenProvider.ofSettings settings.token = .ok provider := rfl
  obtain ⟨d, hbuild⟩ := App.exists_build hprovider
  have hbuilt := App.blueprint_of_build hbuild hprovider
  have hwho : d.registry.resolve "app.WhoAmI" = .ok whoAmI :=
    App.resolve_name hbuilt (c := whoAmI) (by simp [commands]) (by decide)
  have hlogin : d.registry.resolve "app.auth.Login" =
      .ok (Demo.login provider (ofUsers settings.users)) :=
    App.resolve_name hbuilt (c := Demo.login _ _) (by simp [commands]) (by decide)
  have hservice := Blueprint.service_of_build hbuilt
  have hwrong : (UserRecord.make (.replicate 16 0) "ann" "pw"
      (AuthoritySet.ofList ["ROLE_USER"])).accepts "guess" = false := by decide +kernel
  -- the two keys are written in their order already
  have hordered : ∀ {α : Type} (a b : α), Entries.ofList [("password", a), ("username", b)] =
      [("password", a), ("username", b)] := fun _ _ =>
    Entries.Sorted.ofList_eq (List.pairwise_pair.2 (show "password" < "username" by decide))
  have hmembers : ∀ name, (login name).members =
      [("password", .string "guess"), ("username", .string name)] := by
    intro name
    exact congrArg (Entries.mapValues Document.json)
      (hordered (Document.ofJson (.string "guess")) (Document.ofJson (.string name)))
  -- neither name and password is a user: one name is unknown, and the other password is wrong
  have hvain : ∀ name, VainLogin settings d (login name) r := by
    intro name
    refine ⟨.fresh _, rfl, ⟨_, hlogin, rfl⟩, ⟨name, "guess", none⟩, ?_, ?_⟩
    · rw [hservice, hmembers]
      rfl
    · intro u hu
      obtain rfl := List.mem_singleton.1 hu.mem
      exact hwrong
  have ha := App.authenticator_eq hbuilt
  -- one caller has no credentials, and the other one has a password that is not accepted
  let a := (App.callers provider (ofUsers [ann])).authenticate
  have hnone : (a (asking.context "1") Instant.epoch).1 = .ok none := rfl
  have hbad : (a (guessing.context "1") Instant.epoch).1 = .error .badCredentials := by
    have hfound : (ofUsers [ann]).find? "ann" = some ann := rfl
    have hcredential : ∀ key, (guessing.context "1").credential? key =
        Entries.get? key [("password", "guess"), ("username", "ann")] := fun key =>
      congrArg (Entries.get? key) (hordered "guess" "ann")
    have hname : (guessing.context "1").credential? Credential.username = some "ann" :=
      hcredential _
    have hgiven : (guessing.context "1").credential? Credential.password = some "guess" :=
      hcredential _
    have hbearer : Credential.presentedToken (guessing.context "1") = .ok none := by
      simp [Credential.presentedToken, hcredential, Credential.token, Credential.authorization]
    simp only [a, App.callers, AuthenticatorChain.authenticate, Authenticator.firstDecisive,
      Authenticator.ofReader, TokenProvider.authenticate, hbearer, UserDirectory.authenticate,
      hname, hgiven, hfound, ann, hwrong, Bool.false_eq_true, if_false]
  have hnobody : d.Unidentified a whoAmI "" asking r :=
    ⟨.fresh _, hwho, fun i hi => absurd (hnone.symm.trans hi) (by simp)⟩
  have hguess : d.Unidentified a whoAmI "" guessing r :=
    ⟨.fresh _, hwho, fun i hi => absurd (hbad.symm.trans hi) (by simp)⟩
  refine ⟨d, hbuild, ?_, ?_⟩
  · exact failed_authentication_concealed.1 ha (App.wellKeyed hbuilt).declaredBy rfl rfl
      hnobody hguess
  · exact failed_authentication_concealed.2 hbuild rfl (hvain "bob") (hvain "ann")

end Demo

end CommandBus

import CommandBus.Proofs.Demo.Building
import CommandBus.Proofs.Token.Verification
import CommandBus.Proofs.User.Reading
import CommandBus.Wire.Handler

/-!
# Tokens of the demo application

A login of the demo application hands out a token for the user.  A caller with the token has
the standing of the identity that the token speaks for, a caller with the name and the password
the standing of the user itself.  The two are the same for every command exactly if no role of
the user has a comma in it.

## Key results

- `issue?_of_login`: a login that succeeds has issued the token that it answers with
- `standing_of_token`, `standing_of_password`: the standing of the two callers
- `token_stands_for_user_iff`: when the two have the same standing with every command
-/

namespace CommandBus

namespace Request

/-- A request with a token and no other credentials. -/
def CarriesToken (request : Request) (token : String) : Prop :=
  ∃ credentials, request.credentials = some credentials ∧ Credential.Carries token credentials

/-- A request with a name, a password and no other credentials. -/
def CarriesPassword (request : Request) (name password : String) : Prop :=
  request.credentials = some (UserDirectory.credentials name password)

end Request

namespace Demo

open Dispatcher

/-! ## A login -/

/-- A login that succeeds has issued the token that it answers with, for the user that has the
    name and the password. -/
theorem issue?_of_login {provider : TokenProvider} {directory : UserDirectory}
    {form : LoginForm} {ctx : Context} {issued : Instant} {name token : String}
    (h : ((login provider directory).execute form ctx issued).result =
      .ok (.ok (issuedToken name token))) :
    ∃ u, directory.find? name = some u ∧ u.accepts form.password = true ∧
      provider.issue? u.identity (form.rememberMe.getD false) issued = some token := by
  unfold login at h
  dsimp only at h
  split at h
  · exact nomatch h
  -- the document tells the name of the form, so the user is the one of that name
  · next u hu =>
    split at h
    · next t ht =>
      have hdoc : issuedToken form.username t = issuedToken name token :=
        Except.ok.inj (Except.ok.inj h)
      simp only [issuedToken, Json.object.injEq, List.cons.injEq, Prod.mk.injEq,
        Json.string.injEq, true_and, and_true] at hdoc
      obtain ⟨rfl, rfl⟩ := hdoc
      obtain ⟨hfound, haccepts⟩ := Option.filter_eq_some_iff.1 hu
      exact ⟨u, hfound, haccepts, ht⟩
    · exact nomatch h

/-! ## Two callers -/

/-- An application that was built with the users of a text. -/
structure Running (text : String) (settings : AppSettings) (provider : TokenProvider)
    (d : Dispatcher Instant) : Prop where
  users : ∃ salts, UserRecord.readList salts text = .ok settings.users
  provider : TokenProvider.ofSettings settings.token = .ok provider
  build : App.build settings = .ok d

theorem Running.blueprint {text : String} {settings : AppSettings} {provider : TokenProvider}
    {d : Dispatcher Instant} (happ : Running text settings provider d) :
    (App.blueprint settings.dispatcher provider (UserDirectory.ofUsers settings.users)).build =
      .ok d :=
  App.blueprint_of_build happ.build happ.provider

/-- A login for the user `u` of a directory that was answered with a token. -/
structure LoggedIn (provider : TokenProvider) (directory : UserDirectory) (u : UserRecord)
    (form : LoginForm) (issued : Instant) (token : String) : Prop where
  user : directory.find? u.name = some u
  answer : ∃ ctx, ((login provider directory).execute form ctx issued).result =
    .ok (.ok (issuedToken u.name token))

/-- Whoever has the name and the password of a user is answered with a token, if there is one
    to be issued. -/
theorem LoggedIn.of_issue {provider : TokenProvider} {directory : UserDirectory} {u : UserRecord}
    {form : LoginForm} {issued : Instant} {token : String}
    (hu : directory.find? u.name = some u) (hname : form.username = u.name)
    (hpassword : u.accepts form.password = true)
    (hissue : provider.issue? u.identity (form.rememberMe.getD false) issued = some token) :
    LoggedIn provider directory u form issued token where
  user := hu
  answer := by
    refine ⟨{}, ?_⟩
    have hfound : loginUser? directory form = some u := by
      rw [loginUser?, hname, hu, Option.filter_some, if_pos hpassword]
    simp only [login, hfound, hissue, hname, done]

/-- The window of a login at a moment: from the issue on and before the end. -/
def InWindow (provider : TokenProvider) (form : LoginForm) (issued now : Instant) : Prop :=
  issued.seconds ≤ now.seconds ∧
    now.seconds < issued.seconds + provider.window (form.rememberMe.getD false)

variable {text : String} {settings : AppSettings} {provider : TokenProvider}
  {d : Dispatcher Instant} {u : UserRecord} {form : LoginForm} {issued : Instant}
  {token password : String} {r : Runtime Instant} {request : Request} {c : Command Instant}

/-- Every registered command classifies as it declares, in every state of the application. -/
private theorem standing_of_found (happ : Running text settings provider d) (hr : d.Reached r)
    (hc : c ∈ d.registry.commands) (id : String) {i : Identity}
    (hfound : ((App.callers provider (UserDirectory.ofUsers settings.users)).authenticate
      (request.context id) r.world).1 = .ok (some i)) :
    d.standing c (request.context id) r = c.declaration.standing i := by
  have hkeyed := App.wellKeyed happ.blueprint
  have hcallers := App.authenticator_eq happ.blueprint
  exact Dispatcher.standing_of_found (faithful_of_reached hkeyed.declaredBy hr)
    (declared_key hkeyed hc) hcallers rfl hfound

/-- Inside the window, the caller with an issued token has the standing of the identity that
    the token speaks for. -/
theorem standing_of_token (happ : Running text settings provider d)
    (hlogin : LoggedIn provider (UserDirectory.ofUsers settings.users) u form issued token)
    (hr : d.Reached r) (hnow : InWindow provider form issued r.world)
    (hrequest : request.CarriesToken token) (hc : c ∈ d.registry.commands) (id : String) :
    d.standing c (request.context id) r = c.declaration.standing u.identity.claimed := by
  obtain ⟨ctx, hanswer⟩ := hlogin.answer
  obtain ⟨found, hfound, -, hissue⟩ := issue?_of_login hanswer
  obtain rfl : found = u := Option.some.inj (hfound.symm.trans hlogin.user)
  obtain ⟨credentials, hcredentials, hcarries⟩ := hrequest
  have hctx : (request.context id).credentials = some credentials := hcredentials
  have hcaller := TokenProvider.authenticate_of_carries
    (TokenProvider.window_pos happ.provider _) hissue hnow hctx hcarries
  -- the token is asked about first and finds somebody, so that nobody else is asked
  refine standing_of_found happ hr hc id ?_
  simp only [App.callers, AuthenticatorChain.authenticate, Authenticator.firstDecisive,
    Authenticator.ofReader, hcaller]

/-- The caller with the name and the password of a user has the standing of the user. -/
theorem standing_of_password (happ : Running text settings provider d)
    (hu : (UserDirectory.ofUsers settings.users).find? u.name = some u) (hr : d.Reached r)
    (hpassword : u.accepts password = true)
    (hrequest : request.CarriesPassword u.name password) (hc : c ∈ d.registry.commands)
    (id : String) :
    d.standing c (request.context id) r = c.declaration.standing u.identity := by
  have hctx : (request.context id).credentials =
      some (UserDirectory.credentials u.name password) := hrequest
  obtain ⟨hnone, hcaller⟩ := UserDirectory.authenticate_password hu hpassword hctx
  -- without a token the first strategy finds nobody, and the second one is asked
  refine standing_of_found happ hr hc id ?_
  simp only [App.callers, AuthenticatorChain.authenticate, Authenticator.firstDecisive,
    Authenticator.ofReader, TokenProvider.authenticate, hnone, hcaller]

/-- Inside the window of a token, a request that carries only the token and a request that
    carries only the name and the password of the user have the same standing with every command
    of the application, which is to say that they are let pass alike and that the command sees
    the same identity, exactly if no role of the user has a comma in it. -/
theorem token_stands_for_user_iff (happ : Running text settings provider d)
    (hlogin : LoggedIn provider (UserDirectory.ofUsers settings.users) u form issued token)
    {r r' : Runtime Instant} (hr : d.Reached r) (hr' : d.Reached r')
    (hnow : InWindow provider form issued r.world) {byToken byPassword : Request}
    (htoken : byToken.CarriesToken token) (hpassword : u.accepts password = true)
    (hname : byPassword.CarriesPassword u.name password) (id id' : String) :
    (∀ c ∈ d.registry.commands,
      d.standing c (byToken.context id) r = d.standing c (byPassword.context id') r') ↔
      ∀ role ∈ u.authorities, ',' ∉ role.toList := by
  have hplain : u.identity.Plain :=
    have ⟨_, husers⟩ := happ.users
    UserRecord.plain_of_readList husers u (UserDirectory.mem_of_find?_ofUsers hlogin.user).1
  have hiff : u.identity.claimed = u.identity ↔ ∀ role ∈ u.authorities, ',' ∉ role.toList :=
    Identity.claimed_eq_iff hplain
  rw [← hiff]
  constructor
  · intro hall
    -- the command that tells who the caller is tells the two identities apart
    have hwho : whoAmI ∈ d.registry.commands :=
      App.registered_of_mem_commands happ.blueprint (by simp [commands])
    have hsame := hall whoAmI hwho
    rw [standing_of_token happ hlogin hr hnow htoken hwho,
      standing_of_password happ hlogin.user hr' hpassword hname hwho] at hsame
    have hseen : some (some u.identity.claimed) = some (some u.identity) := hsame
    exact Option.some.inj (Option.some.inj hseen)
  · intro heq c hc
    rw [standing_of_token happ hlogin hr hnow htoken hc,
      standing_of_password happ hlogin.user hr' hpassword hname hc, heq]

/-- An administrator whose roles have no comma has the same standing by token and by password,
    up to the last second of the window. -/
theorem token_stands_for_admin :
    let admin := UserRecord.make (.replicate 16 0) "admin" "admin"
      (AuthoritySet.ofList ["ROLE_ADMIN", "ROLE_USER"])
    let settings : AppSettings := ⟨{}, ⟨"s", 60, 3600⟩, [admin]⟩
    let provider : TokenProvider := ⟨Bytes.ofText "s", 60, 3600⟩
    let directory := UserDirectory.ofUsers [admin]
    let token := provider.write
      (TokenClaims.make admin.identity Instant.epoch { seconds := 60, nanos := 0 })
    let byToken : Request :=
      { version := "1", command := "",
        credentials := some (.single "authorization" ("Bearer " ++ token)) }
    let byPassword : Request :=
      { version := "1", command := "",
        credentials := some (UserDirectory.credentials "admin" "admin") }
    let r : Runtime Instant := { world := { seconds := 59, nanos := 0 } }
    ∃ d, Running "admin:admin:ROLE_ADMIN|ROLE_USER" settings provider d ∧
      LoggedIn provider directory admin ⟨"admin", "admin", none⟩ Instant.epoch token ∧
      ∀ c ∈ d.registry.commands,
        d.standing c (byToken.context "1") r = d.standing c (byPassword.context "2") r := by
  intro admin settings provider directory token byToken byPassword r
  have hprovider : TokenProvider.ofSettings settings.token = .ok provider := rfl
  obtain ⟨d, hbuild⟩ := App.exists_build hprovider
  have happ : Running "admin:admin:ROLE_ADMIN|ROLE_USER" settings provider d :=
    ⟨⟨fun _ => .replicate 16 0, rfl⟩, hprovider, hbuild⟩
  have haccepts : admin.accepts "admin" = true := UserRecord.accepts_make _ _ _ _
  have hlogin : LoggedIn provider directory admin ⟨"admin", "admin", none⟩ Instant.epoch token :=
    .of_issue rfl rfl haccepts rfl
  have hnow : InWindow provider ⟨"admin", "admin", none⟩ Instant.epoch r.world :=
    ⟨by decide, by decide⟩
  -- no role of the user has a comma, so that the token tells them as they are
  have hcomma : ∀ role ∈ admin.authorities, ',' ∉ role.toList := by
    intro role hrole
    -- there are no more than two roles to look at
    obtain rfl | rfl : role = "ROLE_ADMIN" ∨ role = "ROLE_USER" := by
      simpa using AuthoritySet.mem_ofList.1 hrole
    · decide
    · decide
  have hcarries : byToken.CarriesToken token := ⟨_, rfl, .bearer⟩
  have hname : byPassword.CarriesPassword admin.name "admin" := rfl
  exact ⟨d, happ, hlogin,
    (token_stands_for_user_iff happ hlogin (.fresh _) (.fresh _) hnow hcarries haccepts hname
      "1" "2").2 hcomma⟩

/-- A user with the one role `X,ROLE_ADMIN` may not list the users, but with a token of its own
    it may: the token speaks for somebody with the role `ROLE_ADMIN`. -/
theorem token_splits_role_at_comma :
    let eve := UserRecord.make (.replicate 16 0) "eve" "pw" (AuthoritySet.ofList ["X,ROLE_ADMIN"])
    let settings : AppSettings := ⟨{}, ⟨"s", 60, 3600⟩, [eve]⟩
    let provider : TokenProvider := ⟨Bytes.ofText "s", 60, 3600⟩
    let directory := UserDirectory.ofUsers [eve]
    let token := provider.write
      (TokenClaims.make eve.identity Instant.epoch { seconds := 60, nanos := 0 })
    let byToken : Request :=
      { version := "1", command := "", credentials := some (.single "token" token) }
    let byPassword : Request :=
      { version := "1", command := "",
        credentials := some (UserDirectory.credentials "eve" "pw") }
    let r : Runtime Instant := { world := Instant.epoch }
    ∃ d, Running "eve:pw:X,ROLE_ADMIN" settings provider d ∧
      LoggedIn provider directory eve ⟨"eve", "pw", none⟩ Instant.epoch token ∧
      InWindow provider ⟨"eve", "pw", none⟩ Instant.epoch r.world ∧
      listUsers directory ∈ d.registry.commands ∧
      d.standing (listUsers directory) (byToken.context "1") r =
        some (some (Identity.make "eve" ["X", "ROLE_ADMIN"])) ∧
      d.standing (listUsers directory) (byPassword.context "2") r = none := by
  intro eve settings provider directory token byToken byPassword r
  have hprovider : TokenProvider.ofSettings settings.token = .ok provider := rfl
  obtain ⟨d, hbuild⟩ := App.exists_build hprovider
  have happ : Running "eve:pw:X,ROLE_ADMIN" settings provider d :=
    ⟨⟨fun _ => .replicate 16 0, rfl⟩, hprovider, hbuild⟩
  have haccepts : eve.accepts "pw" = true := UserRecord.accepts_make _ _ _ _
  -- a login at the epoch issues the token that is presented later
  have hlogin : LoggedIn provider directory eve ⟨"eve", "pw", none⟩ Instant.epoch token :=
    .of_issue rfl rfl haccepts rfl
  have hnow : InWindow provider ⟨"eve", "pw", none⟩ Instant.epoch r.world :=
    ⟨by decide, by decide⟩
  have hcarries : byToken.CarriesToken token := ⟨_, rfl, .token⟩
  have hname : byPassword.CarriesPassword eve.name "pw" := rfl
  have hlist : listUsers directory ∈ d.registry.commands :=
    App.registered_of_mem_commands happ.blueprint (by simp [commands, directory, settings])
  -- what the declaration of the command makes of the identity of the token, and of the user
  have hraised : Declaration.standing ⟨"app.admin.ListUsers", [.roles ["ROLE_ADMIN"]]⟩
      (Identity.claimed ⟨"eve", AuthoritySet.ofList ["X,ROLE_ADMIN"]⟩) =
        some (some (Identity.make "eve" ["X", "ROLE_ADMIN"])) := by decide
  have hrefused : Declaration.standing ⟨"app.admin.ListUsers", [.roles ["ROLE_ADMIN"]]⟩
      ⟨"eve", AuthoritySet.ofList ["X,ROLE_ADMIN"]⟩ = none := by decide
  exact ⟨d, happ, hlogin, hnow, hlist,
    (standing_of_token happ hlogin (.fresh _) hnow hcarries hlist "1").trans hraised,
    (standing_of_password happ hlogin.user (.fresh _) haccepts hname hlist "2").trans hrefused⟩

end Demo

end CommandBus

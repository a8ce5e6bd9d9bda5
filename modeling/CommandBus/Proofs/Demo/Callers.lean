import CommandBus.Proofs.Demo.Building
import CommandBus.Proofs.Token.Presenting
import CommandBus.Proofs.User.Reading

/-!
# Who the application believes a caller to be

A caller is asked for its token first.  A token that stands for somebody decides, whatever else
the caller gives; a token that stands for nobody counts as none, while a header that bears no
token ends the matter.  After that the name and the password decide, against the last configured
user of the name.

## Key results

- `believes`: identity, error or nobody, for all credentials and at every moment
- `listUsers_answered`: what becomes of a request for the names of all users
- `callers_believed`: both of them for every application that can be built
-/

namespace CommandBus.Demo

open Credential UserDirectory Dispatcher

/-! ## The caller -/

/-- What the application must answer when it is asked who a caller is. -/
structure Believes (provider : TokenProvider) (users : List UserRecord) (now : Instant)
    (ctx : Context) (answer : Authentication) : Prop where
  /-- The caller is who its token stands for, or if it stands for nobody the user that the
      caller knows, with the roles of the user. -/
  identity : ∀ i, answer = .ok (some i) ↔
    provider.Vouches now ctx i ∨
      (∀ j, ¬ provider.Vouches now ctx j) ∧ ¬ Misformed ctx ∧
        ∃ u, Knows users ctx u ∧ i = ⟨u.name, u.authorities⟩
  /-- The header is looked at and bears no token, or nobody is found by the token and the name
      and the password are of no use. -/
  error : (∃ e, answer = .error e) ↔
    Misformed ctx ∨
      (∀ j, ¬ provider.Vouches now ctx j) ∧ (HalfGiven ctx ∨ Unmatched users ctx)
  /-- Otherwise nobody is found: there is neither a name nor a password. -/
  nobody : answer = .ok none ↔
    (∀ j, ¬ provider.Vouches now ctx j) ∧ ¬ Misformed ctx ∧
      ctx.credential? username = none ∧ ctx.credential? password = none

/-- One answer, or where it finds nobody the other one. -/
def orElse (first second : Authentication) : Authentication :=
  match first with
  | .ok none => second
  | decided => decided

variable {first second : Authentication}

private theorem orElse_eq_some_iff {i : Identity} :
    orElse first second = .ok (some i) ↔
      first = .ok (some i) ∨ first = .ok none ∧ second = .ok (some i) := by
  match first with
  | .error e => simp [orElse]
  | .ok none => simp [orElse]
  | .ok (some j) => simp [orElse]

private theorem orElse_error_iff :
    (∃ e, orElse first second = .error e) ↔
      (∃ e, first = .error e) ∨ first = .ok none ∧ ∃ e, second = .error e := by
  match first with
  | .error e => simp [orElse]
  | .ok none => simp [orElse]
  | .ok (some j) => simp [orElse]

private theorem orElse_eq_none_iff :
    orElse first second = .ok none ↔ first = .ok none ∧ second = .ok none := by
  match first with
  | .error e => simp [orElse]
  | .ok none => simp [orElse]
  | .ok (some j) => simp [orElse]

/-- The name and the password are looked at only if the token decides nothing, and the clock is
    left alone. -/
theorem callers_authenticate (provider : TokenProvider) (directory : UserDirectory)
    (ctx : Context) (now : Instant) :
    (App.callers provider directory).authenticate ctx now =
      (orElse (provider.authenticate now ctx) (directory.authenticate ctx), now) := by
  simp only [App.callers, AuthenticatorChain.authenticate, Authenticator.firstDecisive,
    Authenticator.ofReader]
  -- the token decides if there is one, and the directory is asked otherwise
  match provider.authenticate now ctx with
  | .error e => rfl
  | .ok (some i) => rfl
  | .ok none =>
    match directory.authenticate ctx with
    | .error e => rfl
    | .ok none => rfl
    | .ok (some i) => rfl

/-- The application believes what it must, at every moment. -/
theorem believes (provider : TokenProvider) (users : List UserRecord) (ctx : Context)
    (now : Instant) :
    Believes provider users now ctx
      ((App.callers provider (ofUsers users)).authenticate ctx now).1 := by
  rw [callers_authenticate]
  constructor
  · intro i
    -- either the token decides, or it finds nobody and the directory decides
    rw [orElse_eq_some_iff, TokenProvider.authenticate_eq_some_iff,
      TokenProvider.authenticate_eq_none_iff, UserDirectory.authenticate_eq_some_iff, and_assoc]
    rfl
  · rw [orElse_error_iff, TokenProvider.authenticate_error_iff,
      TokenProvider.authenticate_eq_none_iff, UserDirectory.authenticate_error_iff]
    constructor
    · rintro (hbad | ⟨⟨hno, -⟩, h⟩)
      · exact .inl hbad
      · exact .inr ⟨hno, h⟩
    · rintro (hbad | ⟨hno, h⟩)
      · exact .inl hbad
      · -- a header that bears nothing ends the matter before the name is looked at
        by_cases hbad : Misformed ctx
        · exact .inl hbad
        · exact .inr ⟨⟨hno, hbad⟩, h⟩
  · rw [orElse_eq_none_iff, TokenProvider.authenticate_eq_none_iff,
      UserDirectory.authenticate_eq_none_iff, and_assoc]

/-! ## The names of all users -/

/-- How a request for the names of all users must be answered, by what is believed of its
    caller. -/
structure ListsForAdmins (users : List UserRecord) (believed : Authentication) (id : String)
    (response : Response) : Prop where
  admin : ∀ i, believed = .ok (some i) → "ROLE_ADMIN" ∈ i.authorities →
    response = .success id (.list ((ofUsers users).names.map Value.string))
  insufficient : ∀ i, believed = .ok (some i) → "ROLE_ADMIN" ∉ i.authorities →
    response = .failure id (.accessDenied ⟨"app.admin.ListUsers", .insufficientAuthority⟩)
  unauthenticated : (∀ i, believed ≠ .ok (some i)) →
    response = .failure id (.accessDenied ⟨"app.admin.ListUsers", .unauthenticated⟩)

/-- The names of all users as a value. -/
private theorem ofJson_names (names : List String) :
    Value.ofJson (Json.array (names.map Json.string)).sorted =
      .list (names.map Value.string) := by
  rw [Json.sorted, Value.ofJson]
  congr 1
  induction names with
  | nil => rfl
  | cons name rest ih =>
    simp only [List.map_cons, Json.sortedItems, Value.ofJsonItems, ih]
    rfl

/-- There is nothing to be bound for the names of all users, so that they are given to everyone
    who gets there. -/
private theorem invoke_listUsers {types : Typing} (directory : UserDirectory)
    (hc : types.Describes (listUsers directory)) (s : Conversion.Service) (params : Parameters)
    (ctx : Context) {r : Runtime Instant} (hr : types.Faithful r) :
    ((listUsers directory).invoke s params ctx r).result =
      .ok (.list (directory.names.map Value.string)) := by
  have hbound : (listUsers directory).bound s params r = .ok () := by
    rw [Command.bound_of_faithful hc s params hr]
    rfl
  rw [Command.invoke_eq, hbound]
  exact congrArg Except.ok (ofJson_names directory.names)

variable {settings : AppSettings} {provider : TokenProvider} {d : Dispatcher Instant}

/-- An administrator gets the names of all users, and no other caller does. -/
theorem listUsers_answered (hp : TokenProvider.ofSettings settings.token = .ok provider)
    (hd : App.build settings = .ok d) {r : Runtime Instant} (hr : d.Reached r)
    {request : Request} (hversion : request.version = settings.dispatcher.version)
    {c : Command Instant} (hc : d.registry.resolve request.command = .ok c)
    (hname : c.name = "app.admin.ListUsers") (freshId : String) :
    ListsForAdmins settings.users
      ((App.callers provider (ofUsers settings.users)).authenticate
        (request.context (request.id.getD freshId)) r.world).1
      (request.id.getD freshId) (d.handle freshId request r).1 := by
  have hbuilt := App.blueprint_of_build hd hp
  have htyped := App.typed hbuilt
  have ha := App.authenticator_eq hbuilt
  have hmem := CommandRegistry.mem_commands_of_resolve hc
  -- no other command of the application has the name
  obtain rfl : c = listUsers (ofUsers settings.users) :=
    App.eq_of_name_eq hbuilt hmem (by simp [commands]) hname
  have hversion' : request.version = d.settings.version := by
    rw [hversion, App.settings_eq hbuilt]
  have hfaithful := typed_of_reached htyped hr
  have hdescribes := htyped.commands _ hmem
  -- the check decides by the roles of the caller, whatever is remembered
  have hdecides := AccessRecords.decides_of_faithful hfaithful.access hdescribes.declaration
    (App.callers provider (ofUsers settings.users)).authenticate
    (request.context (request.id.getD freshId)) r.world
  constructor
  · intro i hi hadmin
    have hpermits : Access.Permits [.roles ["ROLE_ADMIN"]]
        ((App.callers provider (ofUsers settings.users)).authenticate
          (request.context (request.id.getD freshId)) r.world).1 :=
      ⟨by simp, i, hi, "ROLE_ADMIN", by simp, hadmin⟩
    have hpassed := hdecides.passes.2 hpermits
    rw [handle_of_resolve hversion' hc, App.chain_of_passed hbuilt hpassed]
    rw [invoke_listUsers _ hdescribes _ _ _ (hfaithful.checked hdescribes _ _)]
    rfl
  · intro i hi hother
    refine handle_of_denied hversion' hc ha (hdecides.insufficient i rfl hi ?_)
    rintro ⟨-, j, hj, role, hrole, hheld⟩
    obtain rfl := Option.some.inj (Except.ok.inj (hi.symm.trans hj))
    obtain rfl := List.mem_singleton.1 hrole
    exact hother hheld
  · intro hnobody
    exact handle_of_unauthenticated htyped.declaredBy ha hr hversion' hc rfl hnobody

/-- Every application that can be built finds its callers as it must, for all credentials and at
    every moment: by a token that stands for somebody, and where there is none by the name and
    the password of a user.  In every state that it gets into, a request for the names of all
    users is answered with them exactly if the caller that was found is an administrator. -/
theorem callers_believed (hd : App.build settings = .ok d) :
    ∃ provider a, TokenProvider.ofSettings settings.token = .ok provider ∧
      d.authenticator = some a ∧
      (∀ ctx now, (a ctx now).2 = now ∧
        Believes provider settings.users now ctx (a ctx now).1) ∧
      ∀ {r}, d.Reached r → ∀ {request : Request}, request.version = settings.dispatcher.version →
        ∀ {c}, d.registry.resolve request.command = .ok c → c.name = "app.admin.ListUsers" →
        ∀ freshId, ListsForAdmins settings.users
          (a (request.context (request.id.getD freshId)) r.world).1
          (request.id.getD freshId) (d.handle freshId request r).1 := by
  obtain ⟨provider, hp⟩ := App.provider_of_build hd
  have hbuilt := App.blueprint_of_build hd hp
  refine ⟨provider, _, hp, App.authenticator_eq hbuilt, fun ctx now => ⟨?_, ?_⟩, ?_⟩
  · rw [callers_authenticate]
  · exact believes provider settings.users ctx now
  · intro r hr request hversion c hc hname freshId
    exact listUsers_answered hp hd hr hversion hc hname freshId

/-- With a token that stands for nobody, a caller is found by name and password.  An entry that
    was replaced is of no use any more, neither its password nor its role. -/
theorem callers_believed_stale_token :
    let salt (n : UInt8) : Salt := .replicate 16 n
    let replaced := UserRecord.make (salt 0) "eve" "old" (AuthoritySet.ofList ["ROLE_ADMIN"])
    let ann := UserRecord.make (salt 1) "ann" "pw" (AuthoritySet.ofList ["ROLE_ADMIN"])
    let eve := UserRecord.make (salt 2) "eve" "new" (AuthoritySet.ofList ["ROLE_USER"])
    let settings : AppSettings := ⟨{}, ⟨"s", 60, 3600⟩, [replaced, ann, eve]⟩
    let request (name given : String) : Request :=
      { version := "1", command := "app.admin.ListUsers",
        credentials :=
          some (.ofList [("password", given), ("token", "stale"), ("username", name)]) }
    let r : Runtime Instant := { world := Instant.epoch }
    ∃ d, App.build settings = .ok d ∧
      (d.handle "1" (request "eve" "old") r).1 =
        .failure "1" (.accessDenied ⟨"app.admin.ListUsers", .unauthenticated⟩) ∧
      (d.handle "2" (request "eve" "new") r).1 =
        .failure "2" (.accessDenied ⟨"app.admin.ListUsers", .insufficientAuthority⟩) ∧
      (d.handle "3" (request "ann" "pw") r).1 =
        .success "3" (.list ((ofUsers settings.users).names.map Value.string)) := by
  intro salt replaced ann eve settings request r
  have hprovider : TokenProvider.ofSettings settings.token =
      .ok ⟨Bytes.ofText "s", 60, 3600⟩ := rfl
  obtain ⟨d, hbuild⟩ := App.exists_build hprovider
  have hbuilt := App.blueprint_of_build hbuild hprovider
  obtain ⟨provider, a, hp, -, hbelieves, hlists⟩ := callers_believed hbuild
  obtain rfl := Except.ok.inj (hprovider.symm.trans hp)
  have hresolve : d.registry.resolve "app.admin.ListUsers" =
      .ok (listUsers (ofUsers settings.users)) :=
    App.resolve_name hbuilt (c := listUsers _) (by simp [commands]) (by decide)
  have hanswer := fun name given freshId =>
    @hlists r (.fresh Instant.epoch) (request name given) rfl _ hresolve rfl freshId
  -- the token stands for nobody, so that what is believed is up to name and password
  have hcredential : ∀ name given id,
      ((request name given).context id).credential? token = some "stale" ∧
      ((request name given).context id).credential? username = some name ∧
      ((request name given).context id).credential? password = some given := by
    intro name given id
    simp [request, Request.context, Context.credential?, Entries.get?_ofList, token, username,
      password]
  have hstale : ∀ name given id j, ¬ TokenProvider.Vouches ⟨Bytes.ofText "s", 60, 3600⟩
      Instant.epoch ((request name given).context id) j := by
    rintro name given id j ⟨t, ht, hverify⟩
    have hnobody : TokenProvider.verify? ⟨Bytes.ofText "s", 60, 3600⟩ (Text.trimmed "stale")
        Instant.epoch = none := rfl
    rw [eq_trimmed_of_presents ht (hcredential name given id).1, hnobody] at hverify
    exact absurd hverify (by simp)
  -- an accepted password makes its user known, and the stale token does not stand in the way
  have hfound : ∀ (u : UserRecord) given id, LastOf settings.users u.name u →
      u.accepts given = true →
      (a ((request u.name given).context id) Instant.epoch).1 = .ok (some u.identity) := by
    intro u given id hu haccepts
    obtain ⟨htoken, hname, hgiven⟩ := hcredential u.name given id
    have hknows : Knows settings.users ((request u.name given).context id) u :=
      ⟨hu, hname, given, hgiven, haccepts⟩
    exact ((hbelieves _ _).2.identity u.identity).2
      (.inr ⟨hstale _ _ _, not_misformed_of_token htoken, u, hknows, rfl⟩)
  -- the later record of a name is the one that counts
  have heve : LastOf settings.users "eve" eve := ⟨[replaced, ann], [], rfl, rfl, by simp⟩
  have hann : LastOf settings.users "ann" ann :=
    ⟨[replaced], [eve], rfl, rfl, List.forall_mem_singleton.2 (show "eve" ≠ "ann" by decide)⟩
  -- the digests of the two passwords of the one name differ
  have hold : (UserRecord.make (.replicate 16 2) "eve" "new"
      (AuthoritySet.ofList ["ROLE_USER"])).accepts "old" = false := by decide +kernel
  refine ⟨d, hbuild, ?_, ?_, ?_⟩
  · refine (hanswer "eve" "old" "1").unauthenticated fun i hi => ?_
    -- whoever is believed has a token or a password, and the request has neither
    obtain hi | ⟨-, -, u, ⟨hlast, hname, given, hgiven, haccepts⟩, -⟩ :=
      ((hbelieves _ _).2.identity i).1 hi
    · exact hstale _ _ _ _ hi
    · obtain ⟨-, heve', hold'⟩ := hcredential "eve" "old" "1"
      have heq : "eve" = u.name := Option.some.inj (heve'.symm.trans hname)
      rw [← heq] at hlast
      obtain rfl := hlast.unique heve
      obtain rfl := Option.some.inj (hold'.symm.trans hgiven)
      exact absurd (hold.symm.trans haccepts) Bool.false_ne_true
  · refine (hanswer "eve" "new" "2").insufficient eve.identity
      (hfound eve "new" "2" heve (UserRecord.accepts_make _ _ _ _)) ?_
    intro h
    exact absurd (AuthoritySet.mem_ofList.1 h) (by simp)
  · exact (hanswer "ann" "pw" "3").admin ann.identity
      (hfound ann "pw" "3" hann (UserRecord.accepts_make _ _ _ _))
      (AuthoritySet.mem_ofList.2 (by simp))

end CommandBus.Demo

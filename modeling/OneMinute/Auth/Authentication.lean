/-
  OneMinute.Auth.Authentication

  Who is authenticated, in all schedules of requests.

  The rows of `sessions` are the tickets that sign-in has issued, in order
  (`SiteOk.rows`), and each ticket rests on a credential that was validated
  (`Warranted`).  `revoked_at` is set exactly by the logouts that reach the
  database (`revokedAt_iff`).  So a cookie is accepted exactly for the tickets with
  its hash, for 30 days, until such a logout, and while the account is active.
-/

import OneMinute.Auth.Sessions

namespace OneMinute.Auth

open Discovery (UserID UnixMilli)
open Handler (Ticket)

/-! ## Tickets -/

/-- What a ticket rests on: a request from the application's own origin, whose
    nonce cookie is the nonce of the body, and a credential that was validated for
    the application and for this nonce. -/
structure Warranted (h : Handler) (validate : Validator) (sha256 : String → List UInt8)
    (t : Ticket) : Prop where
  origin : t.request.origin = h.origin
  cookie : t.request.cookie h.nonceCookie = some t.body.nonce
  long : 20 ≤ t.body.nonce.utf8ByteSize
  credential : ∃ audience payload, h.audience = some audience ∧
    validate t.body.credential audience t.issuedAt = some payload ∧
    payload.text "nonce" = t.body.nonce ∧ payload.subject = t.login.identity.subject ∧
    payload.subject ≠ ""
  secret : t.login.secretHash = sha256 t.secret
  expires : t.login.expires = t.issuedAt + sessionLifetime

section
variable {h : Handler} {validate : Validator} {sha256 : String → List UInt8}
  {hash : String → Int} {a : Accounts}

theorem verify_eq_ok {validated : Option Payload} {nonce : String} {identity : Identity}
    (hv : verify validated nonce = .ok identity) : ∃ payload, validated = some payload ∧
      payload.text "nonce" = nonce ∧ payload.subject = identity.subject ∧ payload.subject ≠ "" := by
  unfold verify at hv
  split at hv
  · cases hv
  · next payload =>
      split at hv
      · cases hv
      · next hnonce =>
          split at hv
          · cases hv
          · next hsubject =>
              obtain rfl := Except.ok.inj hv
              exact ⟨payload, rfl, not_not.mp (not_or.mp hnonce).2, rfl, hsubject⟩

theorem google_eq_ok {now : UnixMilli} {random : Option (List UInt8)} {r : HttpRequest}
    {body : Option GoogleBody} {t : Ticket}
    (hg : h.google validate sha256 now random r body = .ok t) : Warranted h validate sha256 t := by
  unfold Handler.google at hg
  split at hg
  · cases hg
  · next horigin =>
      split at hg
      · cases hg
      · next audience haudience =>
          split at hg
          · cases hg
          · split at hg
            · cases hg
            · next body =>
                split at hg
                · cases hg
                · next hnonce =>
                    obtain ⟨hlong, hcookie⟩ := not_or.mp hnonce
                    split at hg
                    · cases hg
                    · next identity hidentity =>
                        split at hg
                        · cases hg
                        · next bytes =>
                            obtain rfl := Except.ok.inj hg
                            obtain ⟨payload, hvalid, htext, hsubject, hne⟩ := verify_eq_ok hidentity
                            have hsame := of_decide_eq_true (Bool.of_not_eq_false horigin)
                            exact ⟨hsame, not_not.mp hcookie, Nat.le_of_not_lt hlong,
                              ⟨audience, payload, haudience, hvalid, htext, hsubject, hne⟩,
                              rfl, rfl⟩

/-! ## What holds of the site -/

/-- The site after requests on the accounts `a`, which had no sessions. -/
structure SiteOk (h : Handler) (validate : Validator) (sha256 : String → List UInt8)
    (a : Accounts) (x : Site) : Prop where
  recorded : Recorded a x.db
  /-- The rows of `sessions` are the tickets. -/
  rows : x.db.accounts.sessions.map (fun s => (s.userID, s.secretHash, s.expiresAt)) =
    x.issued.map fun c => (c.2.id, c.1.login.secretHash, c.1.login.expires)
  logged : x.issued.map (fun c => (c.1.login, c.2)) = x.db.log
  warranted : ∀ c ∈ x.issued, Warranted h validate sha256 c.1
  /-- Only rows are revoked. -/
  revoked : ∀ k, x.revokedAt k ≠ none → k ∈ x.db.accounts.sessions.map SessionRow.secretHash

/-- What a request knows: a sign-in has its ticket, and what Login knows. -/
def WebOk (h : Handler) (validate : Validator) (sha256 : String → List UInt8) (x : Site) (i : Nat) :
    WebThread → Prop
  | .google _ _ (.login t stage) => Warranted h validate sha256 t ∧ stage.Ok t.login x.db i
  | .google _ _ .start | .google _ _ (.replied _) | .authenticate _ _ | .logout _ _ => True

/-- A statement of Login leaves the sessions and the log alone, or is the commit. -/
theorem Move.session {r : LoginRequest} {i : Nat} {x x' : Shared} {st st' : Stage}
    (hm : Move r hash i x st x' st') :
    (x'.accounts.sessions = x.accounts.sessions ∧ x'.log = x.log ∧ ∀ u, st' ≠ .done (some u)) ∨
      ∃ now u, st' = .done (some u) ∧ x'.log = (r, u) :: x.log ∧
        x'.accounts.sessions = ⟨u.id, r.secretHash, now, r.expires⟩ :: x.accounts.sessions := by
  cases hm with
  | commit now u => exact Or.inr ⟨now, u, rfl, rfl, rfl⟩
  | refused | begin now | fail st locks htaken | lock now locks htaken | found now u hu
  | missing now | insertUser now id locks htaken | insertIdentity now id locks htaken
  | insertProfile now id hchecked | updateUser now u locks htaken
  | updateIdentity now u locks htaken | insertSession now u locks htaken | rollback =>
      exact Or.inl ⟨rfl, rfl, fun u hu => by cases hu⟩

theorem SiteOk.login {x : Site} {t : Ticket} {i : Nat} {db : Shared} {st st' : Stage}
    (hx : SiteOk h validate sha256 a x) (ht : Warranted h validate sha256 t)
    (hok : st.Ok t.login x.db i) (hm : Move t.login hash i x.db st db st') :
    SiteOk h validate sha256 a (x.record db t st') := by
  have hrecorded := hm.recorded hok hx.recorded
  rcases hm.session with ⟨hsessions, hlog, hnot⟩ | ⟨now, u, rfl, hlog, hsessions⟩
  · have hrecord : x.record db t st' = { x with db } := by
      unfold Site.record
      split
      · next st u => exact absurd rfl (hnot u)
      · rfl
    rw [hrecord]
    refine ⟨hrecorded, ?_, ?_, hx.warranted, ?_⟩
    · show db.accounts.sessions.map _ = _
      rw [hsessions]
      exact hx.rows
    · exact hx.logged.trans hlog.symm
    · intro k hk
      show k ∈ db.accounts.sessions.map _
      rw [hsessions]
      exact hx.revoked k hk
  · refine ⟨hrecorded, ?_, ?_, List.forall_mem_cons.mpr ⟨ht, hx.warranted⟩, ?_⟩
    · show db.accounts.sessions.map _ = _ :: x.issued.map _
      rw [hsessions, List.map_cons, hx.rows]
    · show _ :: x.issued.map _ = db.log
      rw [hlog, hx.logged]
    · intro k hk
      show k ∈ db.accounts.sessions.map _
      rw [hsessions]
      exact List.mem_cons_of_mem _ (hx.revoked k hk)

theorem any_secretHash {rows : List SessionRow} {k : List UInt8} :
    (rows.any fun s => decide (s.secretHash = k)) = true ↔
      k ∈ rows.map SessionRow.secretHash := by
  simp [List.any_eq_true]

theorem SiteOk.revoke {x : Site} (hx : SiteOk h validate sha256 a x) (k : List UInt8)
    (now : UnixMilli) : SiteOk h validate sha256 a (x.revoke k now) := by
  unfold Site.revoke
  split
  · next hmem =>
      refine ⟨hx.recorded, hx.rows, hx.logged, hx.warranted, fun k' hk' => ?_⟩
      by_cases hkk : k' = k
      · rw [hkk]
        exact any_secretHash.mp hmem
      · refine hx.revoked k' ?_
        intro hnone
        exact hk' ((if_neg hkk).trans hnone)
  · exact hx

/-- An edit leaves keys, owners and checks. -/
theorem edit_eq_some {b : Accounts} {e : Edit} (he : a.edit e = some b) :
    b.sessions = a.sessions ∧ b.identities = a.identities ∧
      b.users.map UserRow.id = a.users.map UserRow.id ∧
      b.profiles.map ProfileRow.userID = a.profiles.map ProfileRow.userID ∧
      (a.Consistent → b.Consistent) := by
  cases e with
  | status id status =>
      obtain rfl := Option.some.inj he
      have husers : (a.users.map fun u : UserRow => if u.id = id then { u with status } else u).map
          UserRow.id = a.users.map UserRow.id := map_update (fun u => by split <;> rfl) _
      refine ⟨rfl, rfl, husers, rfl, fun ha => ?_⟩
      exact { ha with
        userKey := by rw [husers]; exact ha.userKey
        identityExists := by rw [husers]; exact ha.identityExists
        profileExists := by rw [husers]; exact ha.profileExists
        sessionExists := by rw [husers]; exact ha.sessionExists }
  | rename id name =>
      unfold Accounts.edit at he
      dsimp only at he
      split at he
      · next hname =>
          obtain rfl := Option.some.inj he
          have hprofiles : (a.profiles.map fun p : ProfileRow =>
              if p.userID = id then { p with displayName := name } else p).map
              ProfileRow.userID = a.profiles.map ProfileRow.userID :=
            map_update (fun p => by split <;> rfl) _
          refine ⟨rfl, rfl, rfl, hprofiles, fun ha => ?_⟩
          exact { ha with
            profileKey := by rw [hprofiles]; exact ha.profileKey
            profileExists := by
              intro p hp
              have hid := List.mem_map_of_mem (f := ProfileRow.userID) hp
              rw [hprofiles] at hid
              obtain ⟨q, hq, hqid⟩ := List.mem_map.mp hid
              rw [← hqid]
              exact ha.profileExists q hq
            profileChecked := by
              intro p hp
              obtain ⟨q, hq, rfl⟩ := List.mem_map.mp hp
              split
              · exact hname
              · exact ha.profileChecked q hq }
      · cases he

theorem SiteOk.edit {x : Site} {e : Edit} {b : Accounts} (hx : SiteOk h validate sha256 a x)
    (he : x.db.accounts.edit e = some b) :
    SiteOk h validate sha256 a { x with db := { x.db with accounts := b } } := by
  obtain ⟨hsessions, hidentities, -, hprofiles, hconsistent⟩ := edit_eq_some he
  have hrecorded := hx.recorded
  refine ⟨⟨hconsistent hrecorded.consistent, ?_, ?_, hrecorded.first⟩, ?_, hx.logged,
    hx.warranted, ?_⟩
  · show ∀ subject, subject ∈ b.identities.map _ ↔ _
    rw [hidentities]
    exact hrecorded.subjects
  · intro c hc
    obtain ⟨hidentity, p, hp, hpid⟩ := hrecorded.has c hc
    refine ⟨by rw [hidentities]; exact hidentity, ?_⟩
    have hmem : p.userID ∈ b.profiles.map ProfileRow.userID := by
      rw [hprofiles]
      exact List.mem_map_of_mem hp
    obtain ⟨q, hq, hqid⟩ := List.mem_map.mp hmem
    exact ⟨q, hq, hqid.trans hpid⟩
  · show b.sessions.map _ = _
    rw [hsessions]
    exact hx.rows
  · intro k hk
    show k ∈ b.sessions.map _
    rw [hsessions]
    exact hx.revoked k hk

/-- An edit spares every login. -/
theorem spares_edit {x : Shared} {e : Edit} {b : Accounts} (he : x.accounts.edit e = some b)
    (i : Nat) : Spares x { x with accounts := b } i := by
  obtain ⟨hsessions, hidentities, husers, hprofiles, -⟩ := edit_eq_some he
  refine ⟨fun _ hk => hk, ?_, ?_, ?_, ?_, fun _ hc => hc⟩
  · intro id _ hnew
    show id ∉ b.users.map _
    rwa [husers]
  · intro subject _ hnew
    show subject ∉ b.identities.map _
    rwa [hidentities]
  · intro secret _ hnew
    show secret ∉ b.sessions.map _
    rwa [hsessions]
  · rintro subject id ⟨hidentity, p, hp, hpid⟩
    refine ⟨by rw [hidentities]; exact hidentity, ?_⟩
    have hmem : p.userID ∈ b.profiles.map ProfileRow.userID := by
      rw [hprofiles]
      exact List.mem_map_of_mem hp
    obtain ⟨q, hq, hqid⟩ := List.mem_map.mp hmem
    exact ⟨q, hq, hqid.trans hpid⟩

/-! ## One turn -/

/-- What the turns do, with the facts that let them happen. -/
inductive Turn (h : Handler) (validate : Validator) (sha256 : String → List UInt8)
    (hash : String → Int) (i : Nat) (d : WebSupply) (x : Site) :
    WebThread → Site → WebThread → Prop where
  | refuse (r : HttpRequest) (body : Option GoogleBody) (reply : Reply) :
      Turn h validate sha256 hash i d x (.google r body .start) x (.google r body (.replied reply))
  | checked (r : HttpRequest) (body : Option GoogleBody) (t : Ticket)
      (ht : Warranted h validate sha256 t) :
      Turn h validate sha256 hash i d x (.google r body .start) x
        (.google r body (.login t .begin))
  | login (r : HttpRequest) (body : Option GoogleBody) (t : Ticket) (st st' : Stage) (db : Shared)
      (hm : Move t.login hash i x.db st db st') :
      Turn h validate sha256 hash i d x (.google r body (.login t st)) (x.record db t st')
        (.google r body (afterLogin h t d.now st'))
  | authenticate (r : HttpRequest) (answer : Option User) :
      Turn h validate sha256 hash i d x (.authenticate r none) x (.authenticate r (some answer))
  /-- A logout that does not reach the database. -/
  | stay (r : HttpRequest) (reply : Reply)
      (hnot : ∀ value, r.cookie h.sessionCookie = some value → r.origin = h.origin →
        d.failed = true) :
      Turn h validate sha256 hash i d x (.logout r none) x (.logout r (some reply))
  | logout (r : HttpRequest) (value : String) (horigin : r.origin = h.origin)
      (hcookie : r.cookie h.sessionCookie = some value) (hreached : d.failed = false) :
      Turn h validate sha256 hash i d x (.logout r none) (x.revoke (sha256 value) d.draw.now)
        (.logout r (some h.loggedOut))

theorem webTurn_turn {i : Nat} {d : WebSupply} {x x' : Site} {th th' : WebThread}
    (ht : webTurn h validate sha256 hash i d x th = some (x', th')) :
    Turn h validate sha256 hash i d x th x' th' := by
  cases th with
  | google r body stage =>
      cases stage with
      | start =>
          simp only [webTurn] at ht
          split at ht
          · cases ht
            exact .refuse r body _
          · next t hg =>
              cases ht
              exact .checked r body t (google_eq_ok hg)
      | login t st =>
          obtain ⟨⟨db, st'⟩, hstep, ht⟩ := Option.map_eq_some_iff.mp ht
          cases ht
          exact .login r body t st st' db (step_move hstep)
      | replied reply => cases ht
  | authenticate r answer =>
      cases answer with
      | some answer => cases ht
      | none =>
          simp only [webTurn] at ht
          split at ht <;> cases ht <;> exact .authenticate r _
  | logout r reply =>
      cases reply with
      | some reply => cases ht
      | none =>
          simp only [webTurn] at ht
          split at ht
          · next horigin =>
              cases ht
              exact .stay r _ fun _ _ hsame => absurd hsame (of_decide_eq_false horigin)
          · next horigin =>
              split at ht
              · next hcookie =>
                  cases ht
                  refine .stay r _ fun value hvalue _ => ?_
                  rw [hcookie] at hvalue
                  cases hvalue
              · next value hcookie =>
                  cases hfailed : d.failed with
                  | true =>
                      rw [hfailed] at ht
                      cases ht
                      exact .stay r _ fun _ _ _ => hfailed
                  | false =>
                      rw [hfailed] at ht
                      cases ht
                      have hsame := of_decide_eq_true (Bool.of_not_eq_false horigin)
                      exact .logout r value hsame hcookie hfailed

theorem webOk_afterLogin {x : Site} {i : Nat} {r : HttpRequest} {body : Option GoogleBody}
    {t : Ticket} {now : UnixMilli} {st : Stage} (ht : Warranted h validate sha256 t)
    (hok : st.Ok t.login x.db i) :
    WebOk h validate sha256 x i (.google r body (afterLogin h t now st)) := by
  cases st <;> first | exact trivial | exact ⟨ht, hok⟩

theorem record_db {x : Site} {db : Shared} {t : Ticket} {st : Stage} :
    (x.record db t st).db = db := by
  unfold Site.record
  split <;> rfl

theorem revoke_db {x : Site} {k : List UInt8} {now : UnixMilli} : (x.revoke k now).db = x.db := by
  unfold Site.revoke
  split <;> rfl

theorem WebOk.spares {x x' : Site} {i : Nat} {th : WebThread}
    (hth : WebOk h validate sha256 x i th) (hs : Spares x.db x'.db i) :
    WebOk h validate sha256 x' i th := by
  match th, hth with
  | .google _ _ (.login t stage), ⟨ht, hok⟩ => exact ⟨ht, hok.spares hs⟩
  | .google _ _ .start, _ | .google _ _ (.replied _), _ | .authenticate _ _, _ | .logout _ _, _ =>
      trivial

theorem web_sound : (web h validate sha256 hash).Sound (SiteOk h validate sha256 a)
    (WebOk h validate sha256) where
  start := by
    intro x i r _
    cases r <;> trivial
  own := by
    intro i d x th x' th' hx hth hturn
    cases webTurn_turn hturn with
    | refuse r body reply => exact ⟨hx, trivial⟩
    | checked r body t ht => exact ⟨hx, ht, trivial⟩
    | login r body t st st' db hm =>
        obtain ⟨ht, hok⟩ := hth
        refine ⟨hx.login ht hok hm, webOk_afterLogin ht ?_⟩
        rw [record_db]
        exact hm.ok hok
    | authenticate r answer => exact ⟨hx, trivial⟩
    | stay r reply hnot => exact ⟨hx, trivial⟩
    | logout r value => exact ⟨hx.revoke _ _, trivial⟩
  other := by
    intro i j d x th x' th' ou hij hx hth hou hturn
    cases webTurn_turn hturn with
    | refuse r body reply => exact hou
    | checked r body t ht => exact hou
    | login r body t st st' db hm =>
        refine hou.spares ?_
        rw [record_db]
        exact hm.spares hth.2 hij
    | authenticate r answer => exact hou
    | stay r reply hnot => exact hou
    | logout r value =>
        refine hou.spares ?_
        rw [revoke_db]
        exact .refl _ j
  env := by
    intro e x x' hx henv
    obtain ⟨b, hb, rfl⟩ := Option.map_eq_some_iff.mp henv
    exact ⟨hx.edit hb, fun i th hth => hth.spares (spares_edit hb i)⟩

theorem siteOk_of_run (ha : a.Consistent) (hnone : a.sessions = [])
    {as : List (Schedule WebRequest WebSupply Edit)} {s : Pool Site WebThread}
    (hrun : (webMachine h validate sha256 hash a).run as = some s) :
    SiteOk h validate sha256 a s.shared := by
  refine (web_sound.run hrun ⟨recorded_init ha, ?_, rfl, ?_, ?_⟩).1
  · show a.sessions.map _ = []
    rw [hnone]
    rfl
  · exact fun c hc => absurd hc List.not_mem_nil
  · exact fun k hk => absurd rfl hk

/-! ## Logouts -/

/-- The step is a logout that reaches the database, with a cookie of this hash,
    while the session is there. -/
def Ends (h : Handler) (sha256 : String → List UInt8) (k : List UInt8) (s : Pool Site WebThread) :
    Schedule WebRequest WebSupply Edit → Prop
  | .turn i d => ∃ r value, s.threads[i]? = some (.logout r none) ∧ r.origin = h.origin ∧
      r.cookie h.sessionCookie = some value ∧ sha256 value = k ∧ d.failed = false ∧
      k ∈ s.shared.db.accounts.sessions.map SessionRow.secretHash
  | .spawn _ | .env _ => False

/-- The run has such a step. -/
def LoggedOut (h : Handler) (validate : Validator) (sha256 : String → List UInt8)
    (hash : String → Int) (a : Accounts) (k : List UInt8)
    (as : List (Schedule WebRequest WebSupply Edit)) : Prop :=
  ∃ s act s', (webMachine h validate sha256 hash a).Taken as s act s' ∧ Ends h sha256 k s act

/-- A turn revokes a hash exactly if it is such a logout. -/
theorem Turn.revokedAt {i : Nat} {d : WebSupply} {x x' : Site} {th th' : WebThread}
    (ht : Turn h validate sha256 hash i d x th x' th') (k : List UInt8) :
    x'.revokedAt k ≠ none ↔ x.revokedAt k ≠ none ∨ ∃ r value, th = .logout r none ∧
      r.origin = h.origin ∧ r.cookie h.sessionCookie = some value ∧ sha256 value = k ∧
      d.failed = false ∧ k ∈ x.db.accounts.sessions.map SessionRow.secretHash := by
  cases ht with
  | refuse r body reply => simp
  | checked r body t ht => simp
  | authenticate r answer => simp
  | login r body t st st' db hm =>
      have hsame : (x.record db t st').revokedAt = x.revokedAt := by
        unfold Site.record
        split <;> rfl
      rw [hsame]
      simp
  | stay r reply hnot =>
      refine ⟨Or.inl, fun hor => hor.elim id ?_⟩
      rintro ⟨r', value, hr, horigin, hcookie, -, hreached, -⟩
      cases hr
      rw [hnot value hcookie horigin] at hreached
      cases hreached
  | logout r value horigin hcookie hreached =>
      unfold Site.revoke
      split
      · next hmem =>
          show (if k = sha256 value then some _ else x.revokedAt k) ≠ none ↔ _
          by_cases hk : k = sha256 value
          · subst hk
            rw [if_pos rfl]
            exact ⟨fun _ => Or.inr ⟨r, value, rfl, horigin, hcookie, rfl, hreached,
                any_secretHash.mp hmem⟩,
              fun _ hnone => by cases hnone⟩
          · rw [if_neg hk]
            refine ⟨Or.inl, fun hor => hor.elim id ?_⟩
            rintro ⟨r', value', hr, -, hcookie', hvalue, -, -⟩
            cases hr
            rw [hcookie] at hcookie'
            cases hcookie'
            exact absurd hvalue.symm hk
      · next hmem =>
          refine ⟨Or.inl, fun hor => hor.elim id ?_⟩
          rintro ⟨r', value', hr, -, hcookie', rfl, -, hmem'⟩
          cases hr
          rw [hcookie] at hcookie'
          cases hcookie'
          exact absurd (any_secretHash.mpr hmem') hmem

theorem revokedAt_step {s s' : Pool Site WebThread} {act : Schedule WebRequest WebSupply Edit}
    (hstep : (web h validate sha256 hash).step s act = some s') (k : List UInt8) :
    s'.shared.revokedAt k ≠ none ↔ s.shared.revokedAt k ≠ none ∨ Ends h sha256 k s act := by
  cases act with
  | spawn r =>
      obtain rfl := Option.some.inj hstep
      exact (or_iff_left not_false).symm
  | env e =>
      obtain ⟨x', henv, rfl⟩ := Option.map_eq_some_iff.mp hstep
      obtain ⟨b, -, rfl⟩ := Option.map_eq_some_iff.mp henv
      exact (or_iff_left not_false).symm
  | turn i d =>
      obtain ⟨th, x', th', hth, hturn, rfl⟩ := Threads.step_turn hstep
      rw [(webTurn_turn hturn).revokedAt k]
      refine or_congr_right ?_
      unfold Ends
      simp only [hth, Option.some.injEq]

/-- `revoked_at` is set exactly by the logouts that reach the database. -/
theorem revokedAt_iff {as : List (Schedule WebRequest WebSupply Edit)} {s : Pool Site WebThread}
    (hrun : (webMachine h validate sha256 hash a).run as = some s) (k : List UInt8) :
    s.shared.revokedAt k ≠ none ↔ LoggedOut h validate sha256 hash a k as := by
  refine Machine.run_induction (P := fun as s =>
    s.shared.revokedAt k ≠ none ↔ LoggedOut h validate sha256 hash a k as) ?_ ?_ hrun
  · refine ⟨fun hne => absurd rfl hne, ?_⟩
    rintro ⟨s, act, s', ⟨pre, post, hnil, -, -⟩, -⟩
    simp at hnil
  · intro as s act s' hrun ih hstep
    rw [revokedAt_step hstep k, ih]
    unfold LoggedOut
    simp only [Machine.taken_concat_iff hrun hstep]
    constructor
    · rintro (⟨u, b, u', htaken, hends⟩ | hends)
      · exact ⟨u, b, u', Or.inl htaken, hends⟩
      · exact ⟨s, act, s', Or.inr ⟨rfl, rfl, rfl⟩, hends⟩
    · rintro ⟨u, b, u', htaken | ⟨rfl, rfl, rfl⟩, hends⟩
      · exact Or.inl ⟨u, b, u', htaken, hends⟩
      · exact Or.inr hends

/-! ## Who is authenticated -/

/-- A row that is not revoked and not over, whose account is active. -/
theorem current_eq_some {x : Site} {k : List UInt8} {now : UnixMilli} {v : User}
    (hx : x.db.accounts.Consistent) : x.current k now = some v ↔
      ∃ row ∈ x.db.accounts.sessions, row.secretHash = k ∧ x.revokedAt k = none ∧
        now < row.expiresAt ∧ x.profile row.userID = some v := by
  unfold Site.current
  rw [Option.bind_eq_some_iff]
  constructor
  · rintro ⟨row, hfind, hrow⟩
    have hkey : row.secretHash = k := by simpa using List.find?_some hfind
    split at hrow
    · next hlive => exact ⟨row, List.mem_of_find?_eq_some hfind, hkey, hlive.1, hlive.2, hrow⟩
    · cases hrow
  · rintro ⟨row, hmem, hkey, hlive, hnow, hprofile⟩
    obtain ⟨row', hfind⟩ : ∃ row', (x.db.accounts.sessions.find? fun s =>
        decide (s.secretHash = k)) = some row' :=
      Option.isSome_iff_exists.mp (List.find?_isSome.mpr ⟨row, hmem, decide_eq_true hkey⟩)
    have hkey' : row'.secretHash = k := by simpa using List.find?_some hfind
    have hsame : row' = row := List.inj_on_of_nodup_map hx.sessionKey
      (List.mem_of_find?_eq_some hfind) hmem (hkey'.trans hkey.symm)
    refine ⟨row', hfind, ?_⟩
    rw [hsame, if_pos ⟨hlive, hnow⟩]
    exact hprofile

theorem profile_eq_some {x : Site} {id : UserID} {v : User} (hv : x.profile id = some v) :
    v.id = id ∧ x.db.accounts.isActive id = true := by
  unfold Site.profile at hv
  split at hv
  · next hactive =>
      obtain ⟨p, -, hv⟩ := Option.bind_eq_some_iff.mp hv
      obtain ⟨e, -, rfl⟩ := Option.map_eq_some_iff.mp hv
      exact ⟨rfl, hactive⟩
  · cases hv

theorem SiteOk.exists_ticket {x : Site} (hx : SiteOk h validate sha256 a x) {row : SessionRow}
    (hrow : row ∈ x.db.accounts.sessions) : ∃ c ∈ x.issued, c.2.id = row.userID ∧
      c.1.login.secretHash = row.secretHash ∧ c.1.login.expires = row.expiresAt := by
  have hmem := List.mem_map_of_mem
    (f := fun s : SessionRow => (s.userID, s.secretHash, s.expiresAt)) hrow
  rw [hx.rows] at hmem
  obtain ⟨c, hc, heq⟩ := List.mem_map.mp hmem
  exact ⟨c, hc, by simpa using heq⟩

theorem SiteOk.exists_row {x : Site} (hx : SiteOk h validate sha256 a x) {c : Ticket × User}
    (hc : c ∈ x.issued) : ∃ row ∈ x.db.accounts.sessions, row.userID = c.2.id ∧
      row.secretHash = c.1.login.secretHash ∧ row.expiresAt = c.1.login.expires := by
  have hmem := List.mem_map_of_mem (f := fun c : Ticket × User =>
    (c.2.id, c.1.login.secretHash, c.1.login.expires)) hc
  rw [← hx.rows] at hmem
  obtain ⟨row, hrow, heq⟩ := List.mem_map.mp hmem
  exact ⟨row, hrow, by simpa using heq⟩

/-- In all schedules, from accounts without sessions: Authenticate accepts a hash
    at an instant exactly if sign-in has issued a ticket with it, less than 30 days
    ago, no logout with it has reached the database, and the account is active; it
    then answers the account that Login returned, as it is now. -/
theorem authenticates_iff (ha : a.Consistent) (hnone : a.sessions = [])
    {as : List (Schedule WebRequest WebSupply Edit)} {s : Pool Site WebThread}
    (hrun : (webMachine h validate sha256 hash a).run as = some s) (k : List UInt8)
    (now : UnixMilli) (v : User) :
    s.shared.current k now = some v ↔ ¬ LoggedOut h validate sha256 hash a k as ∧
      ∃ c ∈ s.shared.issued, c.1.login.secretHash = k ∧ now < c.1.issuedAt + sessionLifetime ∧
        s.shared.profile c.2.id = some v := by
  have hs := siteOk_of_run ha hnone hrun
  rw [current_eq_some hs.recorded.consistent, ← revokedAt_iff hrun k, not_not]
  constructor
  · rintro ⟨row, hrow, hkey, hlive, hnow, hprofile⟩
    obtain ⟨c, hc, hid, hhash, hexpires⟩ := hs.exists_ticket hrow
    refine ⟨hlive, c, hc, hhash.trans hkey, ?_, hid ▸ hprofile⟩
    rw [← (hs.warranted c hc).expires, hexpires]
    exact hnow
  · rintro ⟨hlive, c, hc, hkey, hnow, hprofile⟩
    obtain ⟨row, hrow, hid, hhash, hexpires⟩ := hs.exists_row hc
    refine ⟨row, hrow, hhash.trans hkey, hlive, ?_, hid ▸ hprofile⟩
    rw [hexpires, (hs.warranted c hc).expires]
    exact hnow

/-- What was issued stays issued. -/
theorem issued_step {s s' : Pool Site WebThread} {act : Schedule WebRequest WebSupply Edit}
    {c : Ticket × User} (hstep : (web h validate sha256 hash).step s act = some s')
    (hc : c ∈ s.shared.issued) : c ∈ s'.shared.issued := by
  cases act with
  | spawn r =>
      obtain rfl := Option.some.inj hstep
      exact hc
  | env e =>
      obtain ⟨x', henv, rfl⟩ := Option.map_eq_some_iff.mp hstep
      obtain ⟨b, -, rfl⟩ := Option.map_eq_some_iff.mp henv
      exact hc
  | turn i d =>
      obtain ⟨th, x', th', hth, hturn, rfl⟩ := Threads.step_turn hstep
      cases webTurn_turn hturn with
      | refuse r body reply => exact hc
      | checked r body t ht => exact hc
      | authenticate r answer => exact hc
      | stay r reply hnot => exact hc
      | login r body t st st' db hm =>
          show c ∈ (s.shared.record db t st').issued
          unfold Site.record
          split
          · exact List.mem_cons_of_mem _ hc
          · exact hc
      | logout r value horigin hcookie hreached =>
          show c ∈ (s.shared.revoke (sha256 value) d.draw.now).issued
          unfold Site.revoke
          split
          · exact hc
          · exact hc

/-- A hash has one ticket. -/
theorem SiteOk.issued_unique {x : Site} (hx : SiteOk h validate sha256 a x) {c c' : Ticket × User}
    (hc : c ∈ x.issued) (hc' : c' ∈ x.issued)
    (hhash : c.1.login.secretHash = c'.1.login.secretHash) : c = c' := by
  have hrows := congrArg (List.map fun row : UserID × List UInt8 × UnixMilli => row.2.1) hx.rows
  rw [List.map_map, List.map_map] at hrows
  have hnodup : (x.issued.map fun c => c.1.login.secretHash).Nodup := by
    have hkey := hx.recorded.consistent.sessionKey
    exact (show x.db.accounts.sessions.map SessionRow.secretHash =
      x.issued.map fun c => c.1.login.secretHash from hrows) ▸ hkey
  exact List.inj_on_of_nodup_map hnodup hc hc' hhash

/-- In all schedules, from accounts without sessions: whoever is authenticated by a
    secret is the account of a Google subject, for which a request from the
    application's own origin had brought a credential validated for the
    application and for the nonce of its cookie; and the secret never speaks for
    another account, whatever happens later. -/
theorem authenticated_by_google (ha : a.Consistent) (hnone : a.sessions = [])
    {as bs : List (Schedule WebRequest WebSupply Edit)} {s t : Pool Site WebThread}
    (hrun : (webMachine h validate sha256 hash a).run as = some s)
    (hrest : (webMachine h validate sha256 hash a).runFrom s bs = some t) {k : List UInt8}
    {now now' : UnixMilli} {v v' : User} (hv : s.shared.current k now = some v)
    (hv' : t.shared.current k now' = some v') :
    v'.id = v.id ∧ ∃ c ∈ s.shared.issued, Warranted h validate sha256 c.1 ∧
      sha256 c.1.secret = k ∧ v.id = c.2.id ∧
        s.shared.db.accounts.Has c.1.login.identity.subject v.id := by
  have hs := siteOk_of_run ha hnone hrun
  have htrun : (webMachine h validate sha256 hash a).run (as ++ bs) = some t :=
    (Machine.runFrom_append_iff hrun).mpr hrest
  have ht := siteOk_of_run ha hnone htrun
  have hticket : ∀ {x : Site} {now : UnixMilli} {v : User}, SiteOk h validate sha256 a x →
      x.current k now = some v → ∃ c ∈ x.issued, c.1.login.secretHash = k ∧ v.id = c.2.id := by
    intro x now v hx hv
    obtain ⟨row, hrow, hkey, -, -, hprofile⟩ := (current_eq_some hx.recorded.consistent).mp hv
    obtain ⟨c, hc, hid, hhash, -⟩ := hx.exists_ticket hrow
    exact ⟨c, hc, hhash.trans hkey, (profile_eq_some hprofile).1.trans hid.symm⟩
  obtain ⟨c, hc, hhash, hid⟩ := hticket hs hv
  obtain ⟨c', hc', hhash', hid'⟩ := hticket ht hv'
  have hct : c ∈ t.shared.issued := Machine.runFrom_invariant
    (P := fun u : Pool Site WebThread => c ∈ u.shared.issued)
    (fun u act u' hu hstep => issued_step hstep hu) hrest hc
  have hsame := ht.issued_unique hc' hct (hhash'.trans hhash.symm)
  have hw := hs.warranted c hc
  refine ⟨by rw [hid', hid, hsame], c, hc, hw, hw.secret.symm.trans hhash, hid, ?_⟩
  have hlog : (c.1.login, c.2) ∈ s.shared.db.log := by
    rw [← hs.logged]
    exact List.mem_map_of_mem (f := fun c : Ticket × User => (c.1.login, c.2)) hc
  rw [hid]
  exact hs.recorded.has _ hlog

end

/-! ## A sign-in -/

def site : Handler := ⟨"https://app.test", "client", some "client", true⟩

def nonceText : String := "nonce-nonce-nonce-nonce"

/-- A credential of Ann for this nonce. -/
def annsCredential : Validator := fun credential audience _ =>
  if credential = "signed" ∧ audience = "client" then
    some ⟨"s1", [("nonce", .text nonceText), ("name", .text "Ann")]⟩
  else none

/-- 32 bytes of the text, in place of its digest. -/
def digest (text : String) : List UInt8 :=
  (text.toList.map (fun c : Char => UInt8.ofNat c.toNat) ++ List.replicate 32 0).take 32

def noAccounts : Accounts := ⟨[], [], [], []⟩

theorem consistent_noAccounts : noAccounts.Consistent := by
  constructor <;> decide

/-- Ann signs in, statement by statement. -/
def signIn : List (Schedule WebRequest WebSupply Edit) :=
  .spawn (.google ⟨"https://app.test", [("__Host-encounter_login_nonce", nonceText)]⟩
      (some ⟨"signed", nonceText⟩)) ::
    .turn 0 { now := 1000, random := some (List.replicate 32 7) } ::
    List.replicate 10 (.turn 0 { draw := ⟨1000, "u1"⟩ })

def annsHash : List UInt8 := digest (rawURLEncode (List.replicate 32 7))

/-- Ann takes another name. -/
def renamed : List (Schedule WebRequest WebSupply Edit) := [.env (.rename "u1" "Anna")]

theorem signIn_eq : ((webMachine site annsCredential digest (fun text => text.length)
    noAccounts).run signIn).map (fun s => s.shared.current annsHash 2000) =
      some (some ⟨"u1", "Ann", "", false, false⟩) := by
  decide +kernel

theorem authenticates_iff_signIn : ∃ s,
    (webMachine site annsCredential digest (fun text => text.length) noAccounts).run signIn =
      some s ∧ ¬ LoggedOut site annsCredential digest (fun text => text.length) noAccounts
        annsHash signIn := by
  obtain ⟨s, hs, hcurrent⟩ := Option.map_eq_some_iff.mp signIn_eq
  exact ⟨s, hs, ((authenticates_iff consistent_noAccounts rfl hs annsHash 2000 _).mp hcurrent).1⟩

theorem authenticated_by_google_signIn : ∃ s t,
    (webMachine site annsCredential digest (fun text => text.length) noAccounts).run signIn =
      some s ∧
    (webMachine site annsCredential digest (fun text => text.length) noAccounts).runFrom s
      renamed = some t ∧
    t.shared.current annsHash 3000 = some ⟨"u1", "Anna", "", false, false⟩ ∧
    ∃ c ∈ s.shared.issued, Warranted site annsCredential digest c.1 := by
  obtain ⟨s, hs, hcurrent⟩ := Option.map_eq_some_iff.mp signIn_eq
  have hobs : ((webMachine site annsCredential digest (fun text => text.length)
      noAccounts).run (signIn ++ renamed)).map (fun s => s.shared.current annsHash 3000) =
        some (some ⟨"u1", "Anna", "", false, false⟩) := by
    decide +kernel
  obtain ⟨t, ht, hrenamed⟩ := Option.map_eq_some_iff.mp hobs
  have hrest := (Machine.runFrom_append_iff hs).mp ht
  obtain ⟨-, c, hc, hw, -⟩ :=
    authenticated_by_google consistent_noAccounts rfl hs hrest hcurrent hrenamed
  exact ⟨s, t, hs, hrest, hrenamed, c, hc, hw⟩

end OneMinute.Auth

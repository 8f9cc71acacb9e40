/-
  OneMinute.Auth.Subjects

  One subject, one account, in all schedules of logins.

  `Stage.Ok` is what a login knows at each stage: what it is about to insert is
  new, and the lock on its index entry keeps it new while others commit
  (`Spares`); what it has found stays (`Accounts.Has`).  `Recorded` ties the
  identities to the logins that have committed.
-/

import OneMinute.Auth.Login

namespace OneMinute.Auth

open Discovery (UserID UnixMilli)

/-! ## One statement -/

/-- The statements of the transaction `i`, with the facts that let them happen. -/
inductive Move (r : LoginRequest) (hash : String → Int) (i : Nat) (x : Shared) :
    Stage → Shared → Stage → Prop where
  | refused : Move r hash i x .begin x (.done none)
  | begin (now : UnixMilli) : Move r hash i x .begin x (.lock now)
  /-- A statement fails, maybe after it took a lock. -/
  | fail (st : Stage) (locks : Locks Resource) (htaken : x.locks.Taken locks i) :
      Move r hash i x st { x with locks } .rollback
  | lock (now : UnixMilli) (locks : Locks Resource) (htaken : x.locks.Taken locks i)
      (hheld : locks (.advisory (hash ("google:" ++ r.identity.subject))) = some i) :
      Move r hash i x (.lock now) { x with locks } (.select now)
  | found (now : UnixMilli) (u : User) (h : x.accounts.account r.identity.subject = some u) :
      Move r hash i x (.select now) x (.updateUser now u)
  | missing (now : UnixMilli) : Move r hash i x (.select now) x (.insertUser now)
  | insertUser (now : UnixMilli) (id : UserID) (locks : Locks Resource)
      (htaken : x.locks.Taken locks i) (hheld : locks (.user id) = some i)
      (hnew : id ∉ x.accounts.users.map UserRow.id) :
      Move r hash i x (.insertUser now) { x with locks } (.insertIdentity now id)
  | insertIdentity (now : UnixMilli) (id : UserID) (locks : Locks Resource)
      (htaken : x.locks.Taken locks i) (hheld : locks (.identity r.identity.subject) = some i)
      (hchecked : SubjectChecked r.identity.subject)
      (hnew : r.identity.subject ∉ x.accounts.identities.map IdentityRow.subject) :
      Move r hash i x (.insertIdentity now id) { x with locks } (.insertProfile now id)
  | insertProfile (now : UnixMilli) (id : UserID)
      (hchecked : NameChecked (displayName r.identity.name)) :
      Move r hash i x (.insertProfile now id) x (.updateUser now
        ⟨id, displayName r.identity.name, r.identity.picture, true, r.identity.emailVerified⟩)
  | updateUser (now : UnixMilli) (u : User) (locks : Locks Resource)
      (htaken : x.locks.Taken locks i) :
      Move r hash i x (.updateUser now u) { x with locks } (.updateIdentity now u)
  | updateIdentity (now : UnixMilli) (u : User) (locks : Locks Resource)
      (htaken : x.locks.Taken locks i) :
      Move r hash i x (.updateIdentity now u) { x with locks }
        (.insertSession now { u with googleEmailVerified := r.identity.emailVerified })
  | insertSession (now : UnixMilli) (u : User) (locks : Locks Resource)
      (htaken : x.locks.Taken locks i) (hheld : locks (.session r.secretHash) = some i)
      (hchecked : SessionRow.Checked ⟨u.id, r.secretHash, now, r.expires⟩)
      (hnew : r.secretHash ∉ x.accounts.sessions.map SessionRow.secretHash) :
      Move r hash i x (.insertSession now u) { x with locks } (.commit now u)
  | commit (now : UnixMilli) (u : User) :
      Move r hash i x (.commit now u)
        ⟨x.accounts.commit r now u, x.locks.release i, (r, u) :: x.log⟩ (.done (some u))
  | rollback : Move r hash i x .rollback { x with locks := x.locks.release i } (.done none)

section
variable {r : LoginRequest} {hash : String → Int} {i : Nat} {d : Draw} {failed : Bool}
  {x x' : Shared} {st st' : Stage}

theorem Move.undone (st : Stage) : Move r hash i x st x .rollback := .fail st x.locks (.refl _ i)

theorem statement_eq_some {result : Option (Shared × Stage)}
    (h : statement failed x result = some (x', st')) :
    x' = x ∧ st' = .rollback ∨ result = some (x', st') := by
  unfold statement at h
  split at h
  · cases h
    exact Or.inl ⟨rfl, rfl⟩
  · exact Or.inr h

theorem locking_eq_some {k : Resource} {next : Stage}
    (h : x.locking i k next = some (x', st')) :
    ∃ locks, x' = { x with locks } ∧ st' = next ∧ x.locks.Taken locks i ∧ locks k = some i := by
  obtain ⟨locks, hlocks, h⟩ := Option.map_eq_some_iff.mp h
  cases h
  obtain ⟨htaken, hheld⟩ := Locks.acquire_eq_some hlocks
  exact ⟨locks, rfl, rfl, htaken, hheld⟩

theorem step_move (h : r.step hash i d failed x st = some (x', st')) :
    Move r hash i x st x' st' := by
  cases st with
  | begin =>
      cases failed with
      | true =>
          cases h
          exact .refused
      | false =>
          cases h
          exact .begin d.now
  | lock now =>
      rcases statement_eq_some h with ⟨rfl, rfl⟩ | h
      · exact .undone _
      · split at h
        · cases h
          exact .undone _
        · obtain ⟨locks, rfl, rfl, htaken, hheld⟩ := locking_eq_some h
          exact .lock now locks htaken hheld
  | select now =>
      rcases statement_eq_some h with ⟨rfl, rfl⟩ | h
      · exact .undone _
      · split at h
        · next u hu =>
            cases h
            exact .found now u hu
        · cases h
          exact .missing now
  | insertUser now =>
      rcases statement_eq_some h with ⟨rfl, rfl⟩ | h
      · exact .undone _
      · obtain ⟨locks, rfl, rfl, htaken, hheld⟩ := locking_eq_some h
        split
        · exact .fail _ locks htaken
        · next hnew => exact .insertUser now d.id locks htaken hheld hnew
  | insertIdentity now id =>
      rcases statement_eq_some h with ⟨rfl, rfl⟩ | h
      · exact .undone _
      · split at h
        · cases h
          exact .undone _
        · next hchecked =>
            obtain ⟨locks, rfl, rfl, htaken, hheld⟩ := locking_eq_some h
            split
            · exact .fail _ locks htaken
            · next hnew =>
                exact .insertIdentity now id locks htaken hheld (not_not.mp hchecked) hnew
  | insertProfile now id =>
      rcases statement_eq_some h with ⟨rfl, rfl⟩ | h
      · exact .undone _
      · split at h
        · cases h
          exact .undone _
        · next hchecked =>
            cases h
            simp only [Bool.or_eq_true, Bool.not_eq_true', decide_eq_false_iff_not, not_or,
              not_not] at hchecked
            exact .insertProfile now id hchecked.2
  | updateUser now u =>
      rcases statement_eq_some h with ⟨rfl, rfl⟩ | h
      · exact .undone _
      · split at h
        · obtain ⟨locks, rfl, rfl, htaken, _⟩ := locking_eq_some h
          exact .updateUser now u locks htaken
        · cases h
          exact .undone _
  | updateIdentity now u =>
      rcases statement_eq_some h with ⟨rfl, rfl⟩ | h
      · exact .undone _
      · obtain ⟨locks, rfl, rfl, htaken, _⟩ := locking_eq_some h
        exact .updateIdentity now u locks htaken
  | insertSession now u =>
      rcases statement_eq_some h with ⟨rfl, rfl⟩ | h
      · exact .undone _
      · split at h
        · cases h
          exact .undone _
        · next hchecked =>
            obtain ⟨locks, rfl, rfl, htaken, hheld⟩ := locking_eq_some h
            split
            · exact .fail _ locks htaken
            · next hnew =>
                exact .insertSession now u locks htaken hheld (not_not.mp hchecked) hnew
  | commit now u =>
      cases failed with
      | true =>
          cases h
          exact .undone _
      | false =>
          cases h
          exact .commit now u
  | rollback =>
      cases h
      exact .rollback
  | done result => cases h

end

/-! ## What a login knows -/

/-- The subject's account is `id`. -/
structure Accounts.Has (a : Accounts) (subject : String) (id : UserID) : Prop where
  identity : ∃ e ∈ a.identities, e.subject = subject ∧ e.userID = id
  profile : ∃ p ∈ a.profiles, p.userID = id

/-- Login `i` may insert the user `id`. -/
structure NewID (x : Shared) (i : Nat) (id : UserID) : Prop where
  held : x.locks (.user id) = some i
  new : id ∉ x.accounts.users.map UserRow.id

/-- Login `i` may insert the subject. -/
structure NewSubject (x : Shared) (i : Nat) (subject : String) : Prop where
  held : x.locks (.identity subject) = some i
  checked : SubjectChecked subject
  new : subject ∉ x.accounts.identities.map IdentityRow.subject

/-- Login `i` may insert its session. -/
structure NewSession (x : Shared) (i : Nat) (s : SessionRow) : Prop where
  held : x.locks (.session s.secretHash) = some i
  checked : s.Checked
  new : s.secretHash ∉ x.accounts.sessions.map SessionRow.secretHash

/-- `u` is the subject's account, or the one that login `i` creates. -/
structure Resolved (x : Shared) (i : Nat) (subject : String) (u : User) : Prop where
  found : u.newUser = false → x.accounts.Has subject u.id
  created : u.newUser = true →
    NewID x i u.id ∧ NewSubject x i subject ∧ NameChecked u.displayName

/-- What login `i` knows at a stage. -/
def Stage.Ok (r : LoginRequest) (x : Shared) (i : Nat) : Stage → Prop
  | .insertIdentity _ id => NewID x i id
  | .insertProfile _ id => NewID x i id ∧ NewSubject x i r.identity.subject
  | .updateUser _ u | .updateIdentity _ u | .insertSession _ u =>
    Resolved x i r.identity.subject u
  | .commit now u =>
    Resolved x i r.identity.subject u ∧ NewSession x i ⟨u.id, r.secretHash, now, r.expires⟩
  | .done (some u) => (r, u) ∈ x.log
  | .begin | .lock _ | .select _ | .insertUser _ | .rollback | .done none => True

/-! ## What others leave alone -/

/-- Login `i` keeps its locks, nobody inserts what it has locked, and accounts
    stay. -/
structure Spares (x x' : Shared) (i : Nat) : Prop where
  locks : ∀ k, x.locks k = some i → x'.locks k = some i
  users : ∀ id, x.locks (.user id) = some i → id ∉ x.accounts.users.map UserRow.id →
    id ∉ x'.accounts.users.map UserRow.id
  identities : ∀ subject, x.locks (.identity subject) = some i →
    subject ∉ x.accounts.identities.map IdentityRow.subject →
    subject ∉ x'.accounts.identities.map IdentityRow.subject
  sessions : ∀ secret, x.locks (.session secret) = some i →
    secret ∉ x.accounts.sessions.map SessionRow.secretHash →
    secret ∉ x'.accounts.sessions.map SessionRow.secretHash
  has : ∀ subject id, x.accounts.Has subject id → x'.accounts.Has subject id
  log : ∀ c ∈ x.log, c ∈ x'.log

section
variable {r : LoginRequest} {hash : String → Int} {i j : Nat} {x x' : Shared} {st st' : Stage}

theorem NewID.spares {id : UserID} (h : NewID x i id) (hs : Spares x x' i) : NewID x' i id :=
  ⟨hs.locks _ h.held, hs.users id h.held h.new⟩

theorem NewSubject.spares {subject : String} (h : NewSubject x i subject) (hs : Spares x x' i) :
    NewSubject x' i subject :=
  ⟨hs.locks _ h.held, h.checked, hs.identities subject h.held h.new⟩

theorem NewSession.spares {s : SessionRow} (h : NewSession x i s) (hs : Spares x x' i) :
    NewSession x' i s :=
  ⟨hs.locks _ h.held, h.checked, hs.sessions s.secretHash h.held h.new⟩

theorem Resolved.spares {subject : String} {u : User} (h : Resolved x i subject u)
    (hs : Spares x x' i) : Resolved x' i subject u where
  found hu := hs.has _ _ (h.found hu)
  created hu := by
    obtain ⟨hid, hsubject, hname⟩ := h.created hu
    exact ⟨hid.spares hs, hsubject.spares hs, hname⟩

/-- What a login knows is not disturbed by the others. -/
theorem Stage.Ok.spares (h : st.Ok r x i) (hs : Spares x x' i) : st.Ok r x' i := by
  cases st with
  | insertIdentity now id => exact NewID.spares h hs
  | insertProfile now id => exact ⟨h.1.spares hs, h.2.spares hs⟩
  | updateUser now u => exact Resolved.spares h hs
  | updateIdentity now u => exact Resolved.spares h hs
  | insertSession now u => exact Resolved.spares h hs
  | commit now u => exact ⟨h.1.spares hs, h.2.spares hs⟩
  | done result =>
      cases result with
      | some u => exact hs.log _ h
      | none => trivial
  | begin | lock _ | select _ | insertUser _ | rollback => trivial

theorem Spares.refl (x : Shared) (i : Nat) : Spares x x i where
  locks _ h := h
  users _ _ h := h
  identities _ _ h := h
  sessions _ _ h := h
  has _ _ h := h
  log _ h := h

/-- A login that takes or gives back locks spares the others. -/
theorem spares_of_locks {locks : Locks Resource}
    (h : ∀ k, x.locks k = some i → locks k = some i) : Spares x { x with locks } i :=
  { Spares.refl x i with locks := h }

theorem Locks.release_of_ne {κ : Type} {l : Locks κ} {k : κ} (hij : i ≠ j) (h : l k = some j) :
    l.release i k = some j :=
  Locks.release_eq_some.mpr ⟨h, hij.symm⟩

/-! ## The commit -/

/-- An UPDATE leaves the columns that it does not set. -/
theorem map_update {α β : Type} {update : α → α} {column : α → β}
    (h : ∀ x, column (update x) = column x) (l : List α) :
    (l.map update).map column = l.map column := by
  rw [List.map_map]
  exact List.map_congr_left fun x _ => h x

namespace Accounts

variable {a : Accounts} {now : UnixMilli} {u : User}

/-- The ids, keys and owners of the rows after a commit. -/
theorem users_commit : (a.commit r now u).users.map UserRow.id =
    if u.newUser then u.id :: a.users.map UserRow.id else a.users.map UserRow.id := by
  unfold commit
  split
  · rfl
  · refine map_update (fun x => ?_) _
    split <;> rfl

theorem subjects_commit : (a.commit r now u).identities.map IdentityRow.subject =
    if u.newUser then r.identity.subject :: a.identities.map IdentityRow.subject
    else a.identities.map IdentityRow.subject := by
  unfold commit
  split
  · rfl
  · refine map_update (fun x => ?_) _
    split <;> rfl

theorem owners_commit : (a.commit r now u).identities.map IdentityRow.userID =
    if u.newUser then u.id :: a.identities.map IdentityRow.userID
    else a.identities.map IdentityRow.userID := by
  unfold commit
  split
  · rfl
  · refine map_update (fun x => ?_) _
    split <;> rfl

theorem profiles_commit {β : Type} (column : ProfileRow → β) :
    (a.commit r now u).profiles.map column =
    if u.newUser then column ⟨u.id, u.displayName, u.avatarURL⟩ :: a.profiles.map column
    else a.profiles.map column := by
  unfold commit
  split
  · rfl
  · rfl

/-- A commit keeps the accounts of all subjects. -/
theorem Has.commit {subject : String} {id : UserID} (h : a.Has subject id) :
    (a.commit r now u).Has subject id := by
  obtain ⟨⟨e, he, hsubject, hid⟩, p, hp, hpid⟩ := h
  unfold Accounts.commit
  constructor
  · split
    · exact ⟨e, List.mem_cons_of_mem _ he, hsubject, hid⟩
    · refine ⟨_, List.mem_map_of_mem he, ?_, ?_⟩
      · split
        · exact hsubject
        · exact hsubject
      · split
        · exact hid
        · exact hid
  · refine ⟨p, ?_, hpid⟩
    split
    · exact List.mem_cons_of_mem _ hp
    · exact hp

/-- A created account is there after the commit. -/
theorem has_commit_of_newUser (h : u.newUser = true) :
    (a.commit r now u).Has r.identity.subject u.id := by
  have hidentities : (a.commit r now u).identities =
      ⟨r.identity.subject, u.id, r.identity.emailVerified, now⟩ :: a.identities := if_pos h
  have hprofiles : (a.commit r now u).profiles =
      ⟨u.id, u.displayName, u.avatarURL⟩ :: a.profiles := if_pos h
  constructor
  · rw [hidentities]
    exact ⟨_, List.mem_cons_self, rfl, rfl⟩
  · rw [hprofiles]
    exact ⟨_, List.mem_cons_self, rfl⟩

end Accounts

theorem Resolved.has_commit {now : UnixMilli} {u : User}
    (h : Resolved x i r.identity.subject u) :
    (x.accounts.commit r now u).Has r.identity.subject u.id := by
  cases hu : u.newUser with
  | true => exact Accounts.has_commit_of_newUser hu
  | false => exact (h.found hu).commit

/-- What a login commits it had locked. -/
theorem Move.spares (h : Move r hash i x st x' st') (hok : st.Ok r x i) (hij : i ≠ j) :
    Spares x x' j := by
  cases h with
  | refused | begin now | found now u hu | missing now | insertProfile now id hchecked =>
      exact .refl x j
  | fail st locks htaken | lock now locks htaken | insertUser now id locks htaken
  | insertIdentity now id locks htaken | updateUser now u locks htaken
  | updateIdentity now u locks htaken | insertSession now u locks htaken =>
      exact spares_of_locks fun k hk => htaken.kept k j hk
  | rollback => exact spares_of_locks fun k hk => Locks.release_of_ne hij hk
  | commit now u =>
      obtain ⟨hresolved, hsession⟩ := hok
      refine ⟨fun k hk => Locks.release_of_ne hij hk, ?_, ?_, ?_, fun _ _ h => h.commit,
        fun c hc => List.mem_cons_of_mem _ hc⟩
      · intro id hheld hnew
        rw [Accounts.users_commit]
        split
        · next hu =>
            refine List.not_mem_cons_of_ne_of_not_mem ?_ hnew
            rintro rfl
            exact hij (Option.some.inj ((hresolved.created hu).1.held.symm.trans hheld))
        · exact hnew
      · intro subject hheld hnew
        rw [Accounts.subjects_commit]
        split
        · next hu =>
            refine List.not_mem_cons_of_ne_of_not_mem ?_ hnew
            rintro rfl
            exact hij (Option.some.inj ((hresolved.created hu).2.1.held.symm.trans hheld))
        · exact hnew
      · intro secret hheld hnew
        refine List.not_mem_cons_of_ne_of_not_mem ?_ hnew
        rintro rfl
        exact hij (Option.some.inj (hsession.held.symm.trans hheld))

/-- What the SELECT finds is an account. -/
theorem Accounts.has_of_account {a : Accounts} {subject : String} {u : User}
    (h : a.account subject = some u) : a.Has subject u.id ∧ u.newUser = false := by
  obtain ⟨e, he, h⟩ := Option.bind_eq_some_iff.mp h
  split at h
  · obtain ⟨p, hp, rfl⟩ := Option.map_eq_some_iff.mp h
    refine ⟨⟨⟨e, List.mem_of_find?_eq_some he, ?_, rfl⟩, p, List.mem_of_find?_eq_some hp, ?_⟩, rfl⟩
    · simpa using List.find?_some he
    · simpa using List.find?_some hp
  · cases h

/-- Taking locks keeps what the login itself knows. -/
theorem spares_of_taken {locks : Locks Resource} (h : x.locks.Taken locks i) :
    Spares x { x with locks } i :=
  spares_of_locks fun k hk => h.kept k i hk

/-- A statement leads to what the next stage needs. -/
theorem Move.ok (h : Move r hash i x st x' st') (hok : st.Ok r x i) : st'.Ok r x' i := by
  cases h with
  | refused | begin now | fail st locks htaken | lock now locks htaken | missing now | rollback =>
      trivial
  | found now u hu =>
      obtain ⟨hhas, hold⟩ := Accounts.has_of_account hu
      exact ⟨fun _ => hhas, fun hnew => by rw [hold] at hnew; cases hnew⟩
  | insertUser now id locks htaken hheld hnew => exact ⟨hheld, hnew⟩
  | insertIdentity now id locks htaken hheld hchecked hnew =>
      exact ⟨NewID.spares hok (spares_of_taken htaken), hheld, hchecked, hnew⟩
  | insertProfile now id hchecked =>
      refine ⟨fun hnew => Bool.noConfusion hnew, fun _ => ?_⟩
      dsimp only
      exact ⟨hok.1, hok.2, hchecked⟩
  | updateUser now u locks htaken => exact Resolved.spares hok (spares_of_taken htaken)
  | updateIdentity now u locks htaken =>
      have h := Resolved.spares hok (spares_of_taken htaken)
      exact ⟨h.found, h.created⟩
  | insertSession now u locks htaken hheld hchecked hnew =>
      exact ⟨Resolved.spares hok (spares_of_taken htaken), hheld, hchecked, hnew⟩
  | commit now u => exact List.mem_cons_self

/-! ## The constraints -/

section
variable {β : Type} {l l' : List β} {b : β} {new : Prop} [Decidable new]

/-- A column stays a key if the value it may get is new. -/
theorem nodup_inserted (hl' : l' = if new then b :: l else l) (hb : new → b ∉ l)
    (hl : l.Nodup) : l'.Nodup := by
  rw [hl']
  split
  · next hnew => exact List.nodup_cons.mpr ⟨hb hnew, hl⟩
  · exact hl

/-- A check on a column holds if it does of the value that the column may get. -/
theorem forall_inserted {P : β → Prop} (hl' : l' = if new then b :: l else l) (hb : new → P b)
    (hl : ∀ c ∈ l, P c) : ∀ c ∈ l', P c := by
  rw [hl']
  split
  · next hnew => exact List.forall_mem_cons.mpr ⟨hb hnew, hl⟩
  · exact hl

end

/-- A commit deletes no user. -/
theorem Accounts.mem_users_commit {a : Accounts} {now : UnixMilli} {u : User} {id : UserID}
    (hid : id ∈ a.users.map UserRow.id) : id ∈ (a.commit r now u).users.map UserRow.id := by
  rw [Accounts.users_commit]
  split
  · exact List.mem_cons_of_mem _ hid
  · exact hid

/-- What a login returns is a user after its commit. -/
theorem Resolved.mem_users_commit {now : UnixMilli} {u : User}
    (hresolved : Resolved x i r.identity.subject u) (h : x.accounts.Consistent) :
    u.id ∈ (x.accounts.commit r now u).users.map UserRow.id := by
  cases hu : u.newUser with
  | true =>
      rw [Accounts.users_commit, if_pos hu]
      exact List.mem_cons_self
  | false =>
      obtain ⟨e, he, _, hid⟩ := (hresolved.found hu).identity
      exact Accounts.mem_users_commit (hid ▸ h.identityExists e he)

/-- The locks keep the constraints over a commit. -/
theorem Accounts.Consistent.commit (h : x.accounts.Consistent) {now : UnixMilli} {u : User}
    (hresolved : Resolved x i r.identity.subject u)
    (hsession : NewSession x i ⟨u.id, r.secretHash, now, r.expires⟩) :
    (x.accounts.commit r now u).Consistent := by
  have hsessions : (x.accounts.commit r now u).sessions =
      ⟨u.id, r.secretHash, now, r.expires⟩ :: x.accounts.sessions := rfl
  have hnewID : u.newUser = true → u.id ∉ x.accounts.users.map UserRow.id :=
    fun hu => (hresolved.created hu).1.new
  -- every reference to a user stays one, and so is the one to the login's account
  have hkeep : ∀ id ∈ x.accounts.users.map UserRow.id,
      id ∈ (x.accounts.commit r now u).users.map UserRow.id := fun _ =>
    Accounts.mem_users_commit
  have howner : u.id ∈ (x.accounts.commit r now u).users.map UserRow.id :=
    hresolved.mem_users_commit h
  have hidentities : ∀ id ∈ x.accounts.identities.map IdentityRow.userID,
      id ∈ x.accounts.users.map UserRow.id := List.forall_mem_map.mpr h.identityExists
  have hprofiles : ∀ id ∈ x.accounts.profiles.map ProfileRow.userID,
      id ∈ x.accounts.users.map UserRow.id := List.forall_mem_map.mpr h.profileExists
  constructor
  · exact nodup_inserted Accounts.users_commit hnewID h.userKey
  · exact nodup_inserted Accounts.subjects_commit (fun hu => (hresolved.created hu).2.1.new)
      h.identityKey
  · exact nodup_inserted Accounts.owners_commit (fun hu hmem => hnewID hu (hidentities _ hmem))
      h.identityUser
  · exact List.forall_mem_map.mp (forall_inserted Accounts.owners_commit (fun _ => howner)
      fun id hid => hkeep id (hidentities id hid))
  · exact List.forall_mem_map.mp (forall_inserted Accounts.subjects_commit
      (fun hu => (hresolved.created hu).2.1.checked) (List.forall_mem_map.mpr h.identityChecked))
  · exact nodup_inserted (Accounts.profiles_commit ProfileRow.userID)
      (fun hu hmem => hnewID hu (hprofiles _ hmem)) h.profileKey
  · exact List.forall_mem_map.mp (forall_inserted (Accounts.profiles_commit ProfileRow.userID)
      (fun _ => howner) fun id hid => hkeep id (hprofiles id hid))
  · exact List.forall_mem_map.mp (forall_inserted
      (Accounts.profiles_commit ProfileRow.displayName) (fun hu => (hresolved.created hu).2.2)
      (List.forall_mem_map.mpr h.profileChecked))
  · rw [hsessions, List.map_cons]
    exact List.nodup_cons.mpr ⟨hsession.new, h.sessionKey⟩
  · rw [hsessions]
    exact List.forall_mem_cons.mpr ⟨howner, fun s hs => hkeep _ (h.sessionExists s hs)⟩
  · rw [hsessions]
    exact List.forall_mem_cons.mpr ⟨hsession.checked, h.sessionChecked⟩

/-! ## The logins that have committed -/

/-- `u.newUser` says that the login was the first to commit, of a subject that
    had no account. -/
def FirstOf (a : Accounts) (pre : List (LoginRequest × User)) (c : LoginRequest × User) : Prop :=
  c.2.newUser = true ↔ (∀ e ∈ a.identities, e.subject ≠ c.1.identity.subject) ∧
    ∀ c' ∈ pre, c'.1.identity.subject ≠ c.1.identity.subject

/-- The shared state after logins on the accounts `a`. -/
structure Recorded (a : Accounts) (x : Shared) : Prop where
  consistent : x.accounts.Consistent
  /-- The identities are those of `a` and those of the logins. -/
  subjects : ∀ subject, subject ∈ x.accounts.identities.map IdentityRow.subject ↔
    subject ∈ a.identities.map IdentityRow.subject ∨
      ∃ c ∈ x.log, c.1.identity.subject = subject
  has : ∀ c ∈ x.log, x.accounts.Has c.1.identity.subject c.2.id
  first : ∀ c pre, c :: pre <:+ x.log → FirstOf a pre c

theorem recorded_init {a : Accounts} (h : a.Consistent) : Recorded a ⟨a, .free, []⟩ where
  consistent := h
  subjects subject := by simp
  has c hc := (List.not_mem_nil hc).elim
  first c pre h := by simp at h

theorem Recorded.of_accounts {a : Accounts} (h : Recorded a x)
    (haccounts : x'.accounts = x.accounts)
    (hlog : x'.log = x.log) : Recorded a x' where
  consistent := haccounts ▸ h.consistent
  subjects := by rw [haccounts, hlog]; exact h.subjects
  has := by rw [haccounts, hlog]; exact h.has
  first := by rw [hlog]; exact h.first

/-- A login creates the account exactly if no other login has. -/
theorem Recorded.firstOf {a : Accounts} (h : Recorded a x) {u : User}
    (hresolved : Resolved x i r.identity.subject u) : FirstOf a x.log (r, u) := by
  have hmem := h.subjects r.identity.subject
  constructor
  · intro hu
    have hnew := (hresolved.created hu).2.1.new
    rw [hmem, not_or] at hnew
    refine ⟨fun e he hsubject => hnew.1 ?_, fun c hc hsubject => hnew.2 ⟨c, hc, hsubject⟩⟩
    exact hsubject ▸ List.mem_map_of_mem he
  · rintro ⟨hinit, hlog⟩
    by_contra hold
    obtain ⟨e, he, hsubject, _⟩ := (hresolved.found (by simpa using hold)).identity
    rcases hmem.mp (hsubject ▸ List.mem_map_of_mem he) with hold | ⟨c, hc, hc'⟩
    · obtain ⟨e', he', hsubject'⟩ := List.mem_map.mp hold
      exact hinit e' he' hsubject'
    · exact hlog c hc hc'

theorem Recorded.commit {a : Accounts} (h : Recorded a x) {now : UnixMilli} {u : User}
    (hresolved : Resolved x i r.identity.subject u)
    (hsession : NewSession x i ⟨u.id, r.secretHash, now, r.expires⟩) :
    Recorded a ⟨x.accounts.commit r now u, x.locks.release i, (r, u) :: x.log⟩ where
  consistent := h.consistent.commit hresolved hsession
  subjects := by
    intro subject
    rw [Accounts.subjects_commit, List.exists_mem_cons_iff]
    cases hu : u.newUser with
    | true =>
        rw [if_pos rfl, List.mem_cons, h.subjects, eq_comm]
        exact or_left_comm
    | false =>
        rw [if_neg (by decide), h.subjects]
        refine ⟨fun hold => hold.imp_right Or.inr, ?_⟩
        rintro (hold | rfl | hlog)
        · exact Or.inl hold
        · -- the subject of a login that found its account
          obtain ⟨e, he, hsubject, _⟩ := (hresolved.found hu).identity
          exact (h.subjects _).mp (hsubject ▸ List.mem_map_of_mem he)
        · exact Or.inr hlog
  has := List.forall_mem_cons.mpr ⟨hresolved.has_commit, fun c hc => (h.has c hc).commit⟩
  first := by
    intro c pre hsuffix
    rcases List.suffix_cons_iff.mp hsuffix with heq | hsuffix
    · obtain ⟨rfl, rfl⟩ := List.cons.inj heq
      exact h.firstOf hresolved
    · exact h.first c pre hsuffix

theorem Move.recorded {a : Accounts} (h : Move r hash i x st x' st') (hok : st.Ok r x i)
    (hx : Recorded a x) : Recorded a x' := by
  cases h with
  | commit now u => exact hx.commit hok.1 hok.2
  | refused | begin now | fail st locks htaken | lock now locks htaken | found now u hu
  | missing now | insertUser now id locks htaken | insertIdentity now id locks htaken
  | insertProfile now id hchecked | updateUser now u locks htaken
  | updateIdentity now u locks htaken | insertSession now u locks htaken | rollback =>
      exact hx.of_accounts rfl rfl

/-! ## Runs -/

theorem turn_move {i : Nat} {d : Draw × Bool} {l l' : Login}
    (h : (logins hash).turn i d x l = some (x', l')) :
    l'.request = l.request ∧ Move l.request hash i x l.stage x' l'.stage := by
  obtain ⟨⟨y, st⟩, hstep, h⟩ := Option.map_eq_some_iff.mp h
  cases h
  exact ⟨rfl, step_move hstep⟩

theorem logins_sound (hash : String → Int) (a : Accounts) :
    (logins hash).Sound (Recorded a) fun x i l => l.stage.Ok l.request x i where
  start _ _ _ _ := trivial
  own := by
    intro i d x l x' l' hx hok hturn
    obtain ⟨hrequest, hmove⟩ := turn_move hturn
    rw [hrequest]
    exact ⟨hmove.recorded hok hx, hmove.ok hok⟩
  other := by
    intro i j d x l x' l' l₂ hij _ hok hok₂ hturn
    exact hok₂.spares ((turn_move hturn).2.spares hok hij)
  env := by
    intro e
    exact nomatch e

/-- A subject has one account. -/
theorem Accounts.Consistent.has_unique {a : Accounts} (h : a.Consistent) {subject : String}
    {id id' : UserID} (hid : a.Has subject id) (hid' : a.Has subject id') : id = id' := by
  obtain ⟨e, he, hsubject, rfl⟩ := hid.identity
  obtain ⟨e', he', hsubject', rfl⟩ := hid'.identity
  rw [List.inj_on_of_nodup_map h.identityKey he he' (hsubject.trans hsubject'.symm)]

/-- An account has one identity and one profile. -/
theorem Accounts.Consistent.count_eq_one {a : Accounts} (h : a.Consistent) {subject : String}
    {id : UserID} (hid : a.Has subject id) :
    (a.identities.map IdentityRow.userID).count id = 1 ∧
      (a.profiles.map ProfileRow.userID).count id = 1 := by
  obtain ⟨⟨e, he, _, hidentity⟩, p, hp, hprofile⟩ := hid
  constructor
  · exact List.count_eq_one_of_mem h.identityUser (hidentity ▸ List.mem_map_of_mem he)
  · exact List.count_eq_one_of_mem h.profileKey (hprofile ▸ List.mem_map_of_mem hp)

/-- Only the call of a login that returns a user writes accounts. -/
theorem Move.quiet (h : Move r hash i x st x' st') :
    x'.accounts = x.accounts ∨ ∃ u, st' = .done (some u) := by
  cases h with
  | commit now u => exact Or.inr ⟨u, rfl⟩
  | refused | begin now | fail st locks htaken | lock now locks htaken | found now u hu
  | missing now | insertUser now id locks htaken | insertIdentity now id locks htaken
  | insertProfile now id hchecked | updateUser now u locks htaken
  | updateIdentity now u locks htaken | insertSession now u locks htaken | rollback =>
      exact Or.inl rfl

/-- No call of a login that ends in an error changes the accounts. -/
theorem accounts_eq_of_error {a : Accounts} {as : List (Schedule LoginRequest (Draw × Bool) Empty)}
    {t s s' : Pool Shared Login} {i : Nat} {d : Draw × Bool}
    (hrun : (loginMachine hash a).run as = some t)
    (htaken : (loginMachine hash a).Taken as s (.turn i d) s')
    (herror : t.threads[i]? = some ⟨r, .done none⟩) :
    s'.shared.accounts = s.shared.accounts := by
  obtain ⟨pre, post, rfl, hpre, hstep⟩ := htaken
  obtain ⟨l, x', l', hl, hturn, rfl⟩ := Threads.step_turn hstep
  refine (turn_move hturn).2.quiet.resolve_right ?_
  -- a login that has returned a user would still stand there at the end
  rintro ⟨u, hdone⟩
  have hpost := (Machine.runFrom_append_iff hpre).mp hrun
  obtain ⟨w, hw, hrest⟩ := Machine.runFrom_cons_eq_some.mp hpost
  rw [hstep] at hw
  cases hw
  have hi : (s.threads.set i l')[i]? = some l' :=
    List.getElem?_set_self (List.getElem?_eq_some_iff.mp hl).1
  have hend := Threads.final_stays hrest hi fun d y => by
    simp only [logins, hdone]
    rfl
  rw [herror] at hend
  rw [← Option.some.inj hend] at hdone
  cases hdone

end

/-- One subject, one account.  In every schedule, all logins of a subject that
    commit return one user id; `newUser` is true for exactly the first of them, of
    a subject without an account; a user so created has one identity and one
    profile; and a login that ends in an error changed nothing.  The log lists the
    committed logins, the last first. -/
theorem one_subject_one_account {hash : String → Int} {a : Accounts} (ha : a.Consistent)
    {as : List (Schedule LoginRequest (Draw × Bool) Empty)} {t : Pool Shared Login}
    (hrun : (loginMachine hash a).run as = some t) :
    (∀ c ∈ t.shared.log, ∀ c' ∈ t.shared.log,
        c.1.identity.subject = c'.1.identity.subject → c.2.id = c'.2.id) ∧
      (∀ c pre, c :: pre <:+ t.shared.log →
        (c.2.newUser = true ↔ (∀ e ∈ a.identities, e.subject ≠ c.1.identity.subject) ∧
          ∀ c' ∈ pre, c'.1.identity.subject ≠ c.1.identity.subject)) ∧
      (∀ c ∈ t.shared.log, c.2.newUser = true →
        (t.shared.accounts.identities.map IdentityRow.userID).count c.2.id = 1 ∧
          (t.shared.accounts.profiles.map ProfileRow.userID).count c.2.id = 1) ∧
      (∀ (i : Nat) r u, t.threads[i]? = some ⟨r, .done (some u)⟩ → (r, u) ∈ t.shared.log) ∧
      ∀ i d s s' r, (loginMachine hash a).Taken as s (.turn i d) s' →
        t.threads[i]? = some ⟨r, .done none⟩ → s'.shared.accounts = s.shared.accounts := by
  obtain ⟨hrecorded, hok⟩ := (logins_sound hash a).run hrun (recorded_init ha)
  refine ⟨?_, hrecorded.first, ?_, ?_, ?_⟩
  · intro c hc c' hc' hsubject
    refine hrecorded.consistent.has_unique (hrecorded.has c hc) ?_
    rw [hsubject]
    exact hrecorded.has c' hc'
  · exact fun c hc _ => hrecorded.consistent.count_eq_one (hrecorded.has c hc)
  · exact fun i r u hi => hok i _ hi
  · exact fun i d s s' r htaken herror => accounts_eq_of_error hrun htaken herror

/-- One suspended account. -/
def suspendedOnly : Accounts :=
  ⟨[⟨"u0", .suspended, none⟩], [⟨"s0", "u0", true, 0⟩], [⟨"u0", "Zoe", ""⟩], []⟩

theorem consistent_suspendedOnly : suspendedOnly.Consistent := by
  constructor <;> decide

/-- A login of a subject with a session secret made of `byte`. -/
def loginOf (subject : String) (byte : UInt8) : LoginRequest :=
  ⟨⟨subject, " Ann ", "", true⟩, List.replicate 32 byte, 1000⟩

/-- `n` statements of login `i` that go through. -/
def statements (i n : Nat) (id : UserID) : List (Schedule LoginRequest (Draw × Bool) Empty) :=
  List.replicate n (.turn i (⟨0, id⟩, false))

/-- The first login of a subject fails after its inserts, while the second one
    waits for the lock; the second creates the account, the third finds it.  A
    suspended user is turned away. -/
def overlapping : List (Schedule LoginRequest (Draw × Bool) Empty) :=
  [.spawn (loginOf "s1" 1), .spawn (loginOf "s1" 2)] ++ statements 0 4 "u1"
    ++ statements 1 1 "" ++ statements 0 2 "" ++ [.turn 0 (⟨0, ""⟩, true)] ++ statements 0 1 ""
    ++ statements 1 9 "u2" ++ [.spawn (loginOf "s1" 3)] ++ statements 2 7 ""
    ++ [.spawn (loginOf "s0" 4)] ++ statements 3 5 ""

theorem one_subject_one_account_overlapping : ∃ t,
    (loginMachine (fun text => text.length) suspendedOnly).run overlapping = some t ∧
      t.threads.map Login.stage =
        [.done none, .done (some ⟨"u2", "Ann", "", true, true⟩),
          .done (some ⟨"u2", "Ann", "", false, true⟩), .done none] ∧
      (∀ c ∈ t.shared.log, ∀ c' ∈ t.shared.log,
        c.1.identity.subject = c'.1.identity.subject → c.2.id = c'.2.id) ∧
      (loginOf "s1" 2, ⟨"u2", "Ann", "", true, true⟩) ∈ t.shared.log ∧
      (t.shared.accounts.identities.map IdentityRow.userID).count "u2" = 1 := by
  have hobs : ((loginMachine (fun text => text.length) suspendedOnly).run overlapping).map
      (fun t => t.threads) =
        some [⟨loginOf "s1" 1, .done none⟩,
          ⟨loginOf "s1" 2, .done (some ⟨"u2", "Ann", "", true, true⟩)⟩,
          ⟨loginOf "s1" 3, .done (some ⟨"u2", "Ann", "", false, true⟩)⟩,
          ⟨loginOf "s0" 4, .done none⟩] := by
    decide +kernel
  obtain ⟨t, ht, hthreads⟩ := Option.map_eq_some_iff.mp hobs
  obtain ⟨hsame, _, hcreated, hlogged, _⟩ := one_subject_one_account consistent_suspendedOnly ht
  have hmem : (loginOf "s1" 2, (⟨"u2", "Ann", "", true, true⟩ : User)) ∈ t.shared.log :=
    hlogged 1 _ _ (by rw [hthreads]; rfl)
  exact ⟨t, ht, by rw [hthreads]; rfl, hsame, hmem, (hcreated _ hmem rfl).1⟩

end OneMinute.Auth

/-
  OneMinute.Communication.Listings

  The listings of a user: GET conversations, GET connections and GET
  notifications, each with its own joins and NOT EXISTS clauses, beside `peer`.

  The first two and `peer` agree on which connections there are
  (`mem_conversations`, `mem_connections`, `peer_iff`).  The query of GET
  notifications does not ask for the status of the accounts, so it agrees with
  them as long as no notice is about an account that is not active
  (`Listed.agree_iff`).  The listings are without their LIMITs.
-/

import OneMinute.Communication.Messages

namespace OneMinute.Communication

open Discovery (UserID UnixMilli Profile)

/-! ## Rows -/

/-- `notifications` with the columns that only its listing reads. -/
structure NotificationRow extends Notification where
  id : Nat
  createdAt : UnixMilli
deriving DecidableEq, Repr

/-- The other columns of `profiles`, with `profile_interests` and
    `profile_languages`. -/
structure ProfileDetails where
  bio : String
  countryCode : Option String
  interests : List String
  languages : List String
deriving DecidableEq, Repr

/-- The tables with the foreign keys of the rows that the listings join. -/
structure Listed where
  tables : Tables
  notices : List NotificationRow
  details : UserID → ProfileDetails
  notices_eq : notices.map NotificationRow.toNotification = tables.notifications
  ends : ∀ r ∈ tables.db.connections.rows, tables.db.knows r.userLow r.userHigh = true
  noticed : ∀ n ∈ notices, n.connectionID ∈ tables.db.connections.rows.map ConnectionRow.id

/-- An item of GET conversations. -/
structure ConversationItem where
  id : String
  person : UserID
  displayName : String
  avatarURL : String
  preview : String
  updatedAt : UnixMilli
  unread : Nat
deriving DecidableEq, Repr

/-- `social.Profile`. -/
structure Person where
  id : UserID
  displayName : String
  avatarURL : String
  bio : String
  countryCode : String
  interests : List String
  languages : List String
deriving DecidableEq, Repr

/-- `social.Connection`. -/
structure Connection where
  id : String
  createdAt : UnixMilli
  person : Person
deriving DecidableEq, Repr

/-- An item of GET notifications. -/
structure NotificationItem where
  id : Nat
  connectionID : String
  kind : String
  createdAt : UnixMilli
  read : Bool
  name : String
deriving DecidableEq, Repr

def Reference.kind : Reference → String
  | .message _ => "message"
  | .call _ => "call"
  | .connection _ => "connection"

/-- CASE WHEN c.user_low=$1 THEN c.user_high ELSE c.user_low END. -/
def otherEnd (u : UserID) (r : ConnectionRow) : UserID :=
  if r.userLow = u then r.userHigh else r.userLow

namespace Listed

/-! ## GET conversations -/

/-- The lateral subquery: ORDER BY id DESC LIMIT 1. -/
def lastMessage (s : Listed) (c : String) : Option Message :=
  ((s.tables.messages.filter fun m => decide (m.connectionID = c)).insertionSort
    fun m m' => m'.id ≤ m.id).head?

/-- The unread notices of messages. -/
def unread (s : Listed) (u : UserID) (c : String) : Nat :=
  s.tables.notifications.countP fun n =>
    decide (n.userID = u) && decide (n.connectionID = c)
      && decide (n.about.kind = "message")
      && n.readAt.isNone

def conversation (s : Listed) (u : UserID) (r : ConnectionRow) : Option ConversationItem :=
  (s.tables.db.profiles (otherEnd u r)).map fun p =>
    { id := r.id
      person := otherEnd u r
      displayName := p.displayName
      avatarURL := p.avatarURL
      preview := ((s.lastMessage r.id).map fun m => String.ofList (m.body.toList.take 180)).getD ""
      updatedAt := ((s.lastMessage r.id).map Message.createdAt).getD r.createdAt
      unread := s.unread u r.id }

def conversations (s : Listed) (u : UserID) : List ConversationItem :=
  let db := s.tables.db
  ((db.connections.rows.filter fun r =>
      (decide (u = r.userLow) || decide (u = r.userHigh)) && r.active
        && !decide (db.blocked r.userLow r.userHigh) && db.allActive r.userLow r.userHigh
    ).filterMap (s.conversation u)).insertionSort fun a b => b.updatedAt ≤ a.updatedAt

/-! ## GET connections -/

def connection (s : Listed) (u : UserID) (r : ConnectionRow) : Option Connection :=
  (s.tables.db.profiles (otherEnd u r)).map fun p =>
    let details := s.details (otherEnd u r)
    { id := r.id
      createdAt := r.createdAt
      person :=
        { id := otherEnd u r
          displayName := p.displayName
          avatarURL := p.avatarURL
          bio := details.bio
          countryCode := details.countryCode.getD ""
          interests := details.interests.insertionSort (· ≤ ·)
          languages := details.languages.insertionSort (· ≤ ·) } }

def connections (s : Listed) (u : UserID) : List Connection :=
  let db := s.tables.db
  ((db.connections.rows.filter fun r =>
      r.active && (decide (u = r.userLow) || decide (u = r.userHigh))
        && decide (db.users (otherEnd u r) = some .active)
        && !decide (db.blocked u (otherEnd u r))
    ).filterMap (s.connection u)).insertionSort fun a b => b.createdAt ≤ a.createdAt

/-! ## GET notifications -/

def notificationOf (n : NotificationRow) (p : Profile) : NotificationItem :=
  ⟨n.id, n.connectionID, n.about.kind, n.createdAt, n.readAt.isSome, p.displayName⟩

/-- The row of the query for a notice: the joins with its connection and with a
    profile. -/
def notification (s : Listed) (u : UserID) (n : NotificationRow) : Option NotificationItem :=
  let db := s.tables.db
  if n.userID = u then
    (db.connections.rows.find? fun r =>
        decide (r.id = n.connectionID) && r.active
          && !decide (db.blocked r.userLow r.userHigh)).bind
      fun r => (db.profiles (otherEnd u r)).map (notificationOf n)
  else none

def notifications (s : Listed) (u : UserID) : List NotificationItem :=
  (s.notices.filterMap (s.notification u)).insertionSort fun a b => b.id ≤ a.id

/-! ## What they agree on -/

/-- The three lists and `peer` name the same connections, and a notice one of
    them. -/
structure Agree (s : Listed) (U : UUIDText) (u : UserID) : Prop where
  connections : ∀ c, c ∈ (s.connections u).map Connection.id ↔
    c ∈ (s.conversations u).map ConversationItem.id
  peer : ∀ c, (∃ p, s.tables.peer U u c = some (c, p)) ↔
    c ∈ (s.conversations u).map ConversationItem.id
  spelled : ∀ id c p, s.tables.peer U u id = some (c, p) →
    c ∈ (s.conversations u).map ConversationItem.id
  notifications : ∀ n ∈ s.notifications u,
    n.connectionID ∈ (s.conversations u).map ConversationItem.id

/-- A connection between `u` and an active user that is neither ended nor
    blocked. -/
def Usable (s : Listed) (u : UserID) (r : ConnectionRow) : Prop :=
  (u = r.userLow ∨ u = r.userHigh) ∧ r.active = true ∧
    ¬ s.tables.db.blocked r.userLow r.userHigh ∧ s.tables.db.users (otherEnd u r) = some .active

/-- Each notice of `u` about an open connection is about one of `u` with an
    active user. -/
def NoticesActive (s : Listed) (u : UserID) : Prop :=
  ∀ n ∈ s.notices, n.userID = u → ∀ r ∈ s.tables.db.connections.rows, r.id = n.connectionID →
    r.active = true → ¬ s.tables.db.blocked r.userLow r.userHigh →
      (u = r.userLow ∨ u = r.userHigh) ∧ s.tables.db.users (otherEnd u r) = some .active

/-- Every user has a profile. -/
def Profiled (s : Listed) : Prop :=
  ∀ v, (s.tables.db.users v).isSome = true → (s.tables.db.profiles v).isSome = true

/-- The texts of the ids in the database are read as these ids. -/
def Prints (s : Listed) (U : UUIDText) : Prop :=
  ∀ r ∈ s.tables.db.connections.rows, U.parses r.id = true ∧ U.cast r.id = some r.id

variable {s : Listed} {U : UUIDText} {u : UserID} {r : ConnectionRow} {c : String}

theorem profile_of_end (h : s.Profiled) (hr : r ∈ s.tables.db.connections.rows) :
    ∃ p, s.tables.db.profiles (otherEnd u r) = some p := by
  have hknows := s.ends r hr
  rw [Database.knows, Bool.and_eq_true] at hknows
  apply Option.isSome_iff_exists.mp
  apply h
  unfold otherEnd
  split
  · exact hknows.2
  · exact hknows.1

/-- With `u` active, it is the other end that counts. -/
theorem allActive_iff (hu : s.tables.db.users u = some .active)
    (hr : r ∈ s.tables.db.connections.rows) (hend : u = r.userLow ∨ u = r.userHigh) :
    s.tables.db.allActive r.userLow r.userHigh = true ↔
      s.tables.db.users (otherEnd u r) = some .active := by
  have hknows := s.ends r hr
  rw [Database.knows, Bool.and_eq_true] at hknows
  obtain ⟨low, hlow⟩ := Option.isSome_iff_exists.mp hknows.1
  obtain ⟨high, hhigh⟩ := Option.isSome_iff_exists.mp hknows.2
  have hall : s.tables.db.allActive r.userLow r.userHigh = true ↔
      low = .active ∧ high = .active := by
    simp [Database.allActive, hlow, hhigh]
  rw [hall, otherEnd]
  rcases hend with rfl | rfl
  · rw [if_pos rfl, hhigh]
    rw [hlow] at hu
    simp [Option.some.inj hu]
  · have hne : r.userLow ≠ r.userHigh := ne_of_lt (s.tables.db.connections.checked r hr)
    rw [if_neg hne, hlow]
    rw [hhigh] at hu
    simp [Option.some.inj hu]

/-- Block rows are asked for in both directions, so by the other end too. -/
theorem blocked_otherEnd (hend : u = r.userLow ∨ u = r.userHigh) :
    s.tables.db.blocked u (otherEnd u r) ↔ s.tables.db.blocked r.userLow r.userHigh := by
  unfold otherEnd
  split
  · next hlow => rw [hlow]
  · next hlow =>
      have hhigh : u = r.userHigh := hend.resolve_left fun e => hlow e.symm
      rw [hhigh]
      exact or_comm

/-! ## Which connections they name -/

theorem mem_conversations (hp : s.Profiled) (hu : s.tables.db.users u = some .active) :
    c ∈ (s.conversations u).map ConversationItem.id ↔
      ∃ r ∈ s.tables.db.connections.rows, r.id = c ∧ s.Usable u r := by
  simp only [conversations, List.mem_map, List.mem_insertionSort, List.mem_filterMap,
    List.mem_filter, Bool.and_eq_true, Bool.or_eq_true, decide_eq_true_eq, Bool.not_eq_true',
    decide_eq_false_iff_not]
  constructor
  · rintro ⟨x, ⟨r, ⟨hr, ⟨⟨hend, hactive⟩, hblocked⟩, hall⟩, hx⟩, rfl⟩
    obtain ⟨p, -, rfl⟩ := Option.map_eq_some_iff.mp hx
    exact ⟨r, hr, rfl, hend, hactive, hblocked, (allActive_iff hu hr hend).mp hall⟩
  · rintro ⟨r, hr, rfl, hend, hactive, hblocked, hother⟩
    obtain ⟨p, hprofile⟩ := profile_of_end (u := u) hp hr
    have hall := (allActive_iff hu hr hend).mpr hother
    exact ⟨_, ⟨r, ⟨hr, ⟨⟨hend, hactive⟩, hblocked⟩, hall⟩, Option.map_eq_some_iff.mpr
      ⟨p, hprofile, rfl⟩⟩, rfl⟩

theorem mem_connections (hp : s.Profiled) :
    c ∈ (s.connections u).map Connection.id ↔
      ∃ r ∈ s.tables.db.connections.rows, r.id = c ∧ s.Usable u r := by
  simp only [connections, List.mem_map, List.mem_insertionSort, List.mem_filterMap,
    List.mem_filter, Bool.and_eq_true, Bool.or_eq_true, decide_eq_true_eq, Bool.not_eq_true',
    decide_eq_false_iff_not]
  constructor
  · rintro ⟨x, ⟨r, ⟨hr, ⟨⟨hactive, hend⟩, hother⟩, hblocked⟩, hx⟩, rfl⟩
    obtain ⟨p, -, rfl⟩ := Option.map_eq_some_iff.mp hx
    exact ⟨r, hr, rfl, hend, hactive, mt (blocked_otherEnd hend).mpr hblocked, hother⟩
  · rintro ⟨r, hr, rfl, hend, hactive, hblocked, hother⟩
    obtain ⟨p, hprofile⟩ := profile_of_end (u := u) hp hr
    exact ⟨_, ⟨r, ⟨hr, ⟨⟨hactive, hend⟩, hother⟩, mt (blocked_otherEnd hend).mp hblocked⟩,
      Option.map_eq_some_iff.mpr ⟨p, hprofile, rfl⟩⟩, rfl⟩

theorem db_peer_iff (hu : s.tables.db.users u = some .active) :
    (∃ p, s.tables.db.peer u c = some p) ↔
      ∃ r ∈ s.tables.db.connections.rows, r.id = c ∧ s.Usable u r := by
  rw [← Option.isSome_iff_exists, Database.peer, Option.isSome_map, List.find?_isSome]
  simp only [Bool.and_eq_true, Bool.or_eq_true, decide_eq_true_eq, Bool.not_eq_true',
    decide_eq_false_iff_not]
  constructor
  · rintro ⟨r, hr, ⟨⟨⟨hid, hactive⟩, hend⟩, hblocked⟩, hall⟩
    exact ⟨r, hr, hid, hend, hactive, hblocked, (allActive_iff hu hr hend).mp hall⟩
  · rintro ⟨r, hr, hid, hend, hactive, hblocked, hother⟩
    exact ⟨r, hr, ⟨⟨⟨hid, hactive⟩, hend⟩, hblocked⟩, (allActive_iff hu hr hend).mpr hother⟩

/-- `peer` authorizes a text for `c`. -/
theorem peer_eq_some {id : String} {p : UserID} :
    s.tables.peer U u id = some (c, p) ↔
      U.parses id = true ∧ U.cast id = some c ∧ s.tables.db.peer u c = some p := by
  unfold Tables.peer
  by_cases hparses : U.parses id = true
  · rw [if_pos hparses]
    simp only [Option.bind_eq_some_iff, Option.map_eq_some_iff, Prod.mk.injEq]
    constructor
    · rintro ⟨c', hcast, p', hpeer, rfl, rfl⟩
      exact ⟨hparses, hcast, hpeer⟩
    · rintro ⟨-, hcast, hpeer⟩
      exact ⟨c, hcast, p, hpeer, rfl, rfl⟩
  · rw [if_neg hparses]
    simp [hparses]

theorem notification_eq_some {n : NotificationRow} {x : NotificationItem}
    (h : s.notification u n = some x) : n.userID = u ∧ x.connectionID = n.connectionID ∧
      ∃ r ∈ s.tables.db.connections.rows, r.id = n.connectionID ∧ r.active = true ∧
        ¬ s.tables.db.blocked r.userLow r.userHigh := by
  obtain ⟨huser, hbind⟩ := Option.ite_none_right_eq_some.mp h
  obtain ⟨r, hfind, hx⟩ := Option.bind_eq_some_iff.mp hbind
  obtain ⟨p, -, rfl⟩ := Option.map_eq_some_iff.mp hx
  have hrow := List.find?_some hfind
  simp only [Bool.and_eq_true, decide_eq_true_eq, Bool.not_eq_true',
    decide_eq_false_iff_not] at hrow
  exact ⟨huser, rfl, r, List.mem_of_find?_eq_some hfind, hrow.1.1, hrow.1.2, hrow.2⟩

/-- A notice about an open connection is listed. -/
theorem exists_notification {n : NotificationRow} (hp : s.Profiled) (hn : n ∈ s.notices)
    (huser : n.userID = u) (hr : r ∈ s.tables.db.connections.rows) (hid : r.id = n.connectionID)
    (hactive : r.active = true) (hblocked : ¬ s.tables.db.blocked r.userLow r.userHigh) :
    ∃ x ∈ s.notifications u, x.connectionID = n.connectionID := by
  have hsome : (s.tables.db.connections.rows.find? fun r =>
      decide (r.id = n.connectionID) && r.active
        && !decide (s.tables.db.blocked r.userLow r.userHigh)).isSome = true := by
    rw [List.find?_isSome]
    refine ⟨r, hr, ?_⟩
    simp only [Bool.and_eq_true, decide_eq_true_eq, Bool.not_eq_true', decide_eq_false_iff_not]
    exact ⟨⟨hid, hactive⟩, hblocked⟩
  obtain ⟨r', hfind⟩ := Option.isSome_iff_exists.mp hsome
  obtain ⟨p, hprofile⟩ := profile_of_end (u := u) hp (List.mem_of_find?_eq_some hfind)
  refine ⟨notificationOf n p, ?_, rfl⟩
  refine (List.mem_insertionSort _).mpr (List.mem_filterMap.mpr ⟨n, hn, ?_⟩)
  refine (if_pos huser).trans (Option.bind_eq_some_iff.mpr ⟨r', hfind, ?_⟩)
  exact Option.map_eq_some_iff.mpr ⟨p, hprofile, rfl⟩

/-- In every state in which every user has a profile, the connections that an
    active user sees in GET conversations, in GET connections and through `peer`
    are the same and every notice of GET notifications is about one of them, if
    and only if no notice is about an open connection with an account that is not
    active. -/
theorem agree_iff (hp : s.Profiled) (hU : s.Prints U) (hu : s.tables.db.users u = some .active) :
    s.Agree U u ↔ s.NoticesActive u := by
  constructor
  · intro h n hn huser r hr hid hactive hblocked
    obtain ⟨x, hx, hconn⟩ := exists_notification hp hn huser hr hid hactive hblocked
    have hmem := h.notifications x hx
    rw [hconn] at hmem
    obtain ⟨r', hr', hid', hend, -, -, hother⟩ := (mem_conversations hp hu).mp hmem
    obtain rfl := Database.row_unique hr hr' (hid.trans hid'.symm)
    exact ⟨hend, hother⟩
  · intro h
    constructor
    · exact fun c => (mem_connections hp).trans (mem_conversations hp hu).symm
    · intro c
      rw [mem_conversations hp hu, ← db_peer_iff hu]
      constructor
      · rintro ⟨p, hpeer⟩
        exact ⟨p, (peer_eq_some.mp hpeer).2.2⟩
      · rintro ⟨p, hpeer⟩
        obtain ⟨r, hr, hid, -⟩ := (db_peer_iff hu).mp ⟨p, hpeer⟩
        exact ⟨p, peer_eq_some.mpr ⟨hid ▸ (hU r hr).1, hid ▸ (hU r hr).2, hpeer⟩⟩
    · intro id c p hpeer
      rw [mem_conversations hp hu, ← db_peer_iff hu]
      exact ⟨p, (peer_eq_some.mp hpeer).2.2⟩
    · intro x hx
      obtain ⟨n, hn, hx⟩ := List.mem_filterMap.mp ((List.mem_insertionSort _).mp hx)
      obtain ⟨huser, hconn, r, hr, hid, hactive, hblocked⟩ := notification_eq_some hx
      obtain ⟨hend, hother⟩ := h n hn huser r hr hid hactive hblocked
      rw [hconn, mem_conversations hp hu]
      exact ⟨r, hr, hid, hend, hactive, hblocked, hother⟩

end Listed

theorem withBen_mem : withBen ∈ annsConnections.connections.rows.map ConnectionRow.id := by
  decide

/-- Ann, Ben and Cid with their profiles; Ben's account has the status `ben`. -/
def accounts (ben : AccountStatus) : Listed where
  tables :=
    { db :=
        { annsConnections with
          users := fun u => some (if u = "ben" then ben else .active)
          profiles := fun u => some ⟨u, u, ""⟩ }
      messages := []
      notifications := [⟨"ann", withBen, .message 1, none⟩]
      receipts := fun _ _ => none
      settings := fun _ => none }
  notices := [⟨⟨"ann", withBen, .message 1, none⟩, 1, 0⟩]
  details := fun _ => ⟨"", none, [], []⟩
  notices_eq := rfl
  ends := fun _ _ => rfl
  noticed := fun n hn => by
    rw [List.mem_singleton.mp hn]
    exact withBen_mem

theorem accounts_profiled (ben : AccountStatus) : (accounts ben).Profiled := fun _ _ => rfl

theorem accounts_prints (ben : AccountStatus) : (accounts ben).Prints canonicalUUIDs := by
  have h : ∀ r ∈ annsConnections.connections.rows,
      canonicalUUIDs.parses r.id = true ∧ canonicalUUIDs.cast r.id = some r.id := by
    decide +kernel
  exact h

theorem agree_iff_active : (accounts .active).Agree canonicalUUIDs "ann" ∧
    ((accounts .active).notifications "ann").map NotificationItem.connectionID = [withBen] := by
  refine ⟨(Listed.agree_iff (accounts_profiled _) (accounts_prints _) (by decide)).mpr ?_,
    by decide +kernel⟩
  have h : ∀ r ∈ annsConnections.connections.rows, r.id = withBen →
      ("ann" = r.userLow ∨ "ann" = r.userHigh) := by
    decide +kernel
  intro n hn huser r hr hid _ _
  obtain rfl := List.mem_singleton.mp hn
  exact ⟨h r hr hid, by simp [accounts]⟩

/-- Ben is suspended: Ann's notice of his message stays, the conversation goes. -/
theorem not_agree_suspended : ¬ ∀ (s : Listed) (U : UUIDText) (u : UserID), s.Profiled →
    s.Prints U → s.tables.db.users u = some .active → s.Agree U u := by
  intro h
  have hagree := h (accounts .suspended) canonicalUUIDs "ann" (accounts_profiled _)
    (accounts_prints _) (by decide)
  have hlisted : ((accounts .suspended).notifications "ann").map NotificationItem.connectionID =
        [withBen] ∧
        withBen ∉ ((accounts .suspended).conversations "ann").map ConversationItem.id := by
    decide +kernel
  obtain ⟨x, hx, hid⟩ : ∃ x ∈ (accounts .suspended).notifications "ann",
      x.connectionID = withBen := by
    rw [← List.mem_map, hlisted.1]
    exact List.mem_singleton_self _
  exact hlisted.2 (hid ▸ hagree.notifications x hx)

end OneMinute.Communication

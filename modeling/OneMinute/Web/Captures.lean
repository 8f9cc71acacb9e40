/-
  OneMinute.Web.Captures

  The devices of a private call: who has asked for them, and that they are given
  back.

  A live device is held by a reference of the overlay that `cleanup` follows, or by
  a camera change under way, or it is a stray (`Ok.device`).  The camera of `setup`
  is never displaced, since nothing turns another one on beside it (`Ok.first`), so
  a stray is always the capture of a button.  `hand` names the capture with which a
  change goes on, between the step that takes it from `changes` and the one that
  puts it somewhere.

  Main result: `devices_released`.
-/

import OneMinute.Web.CallOverlay
import Mathlib.Data.List.Basic

namespace OneMinute.Web

/-- Neither an acceptance nor the end of the call. -/
def CallSignal.isQuiet : CallSignal → Bool
  | .accept | .ended | .decline => false
  | .offer _ | .answer _ | .ice _ | .media _ => true

/-- It turns the camera on. -/
def Change.turnsOn : Change → Bool
  | .requesting _ | .replacing _ _ => true
  | _ => false

def Change.ofCamera : Change → Bool
  | .dropping _ | .requesting _ | .replacing _ _ | .switching _ | .handing _ _ => true
  | .accepting | .beating | .telling _ => false

theorem turnsOn_of_not_ofCamera {c : Change} (h : c.ofCamera = false) : c.turnsOn = false := by
  cases c with
  | requesting muted | replacing i muted => cases h
  | _ => rfl

/-- An offer was handled, and no acceptance and no end before. -/
def OfferedFirst (heard : List CallSignal) : Prop :=
  ∃ pre p post, heard = pre ++ .offer p :: post ∧ ∀ e ∈ pre, e.isQuiet = true

theorem OfferedFirst.append {heard : List CallSignal} (h : OfferedFirst heard)
    (more : List CallSignal) : OfferedFirst (heard ++ more) := by
  obtain ⟨pre, p, post, rfl, hpre⟩ := h
  exact ⟨pre, p, post ++ more, by simp, hpre⟩

namespace CallOverlay

/-- Who holds a device. -/
def Owns (s : CallOverlay) (i : Nat) (d : Device) : Prop :=
  match d.kind with
  | .microphone => s.dead = false ∧ i ∈ s.stream.getD []
  | .camera => s.dead = false ∧ s.camera = some i ∨
      d.byButton = true ∧ (i ∈ s.strays ∨ s.dead = false ∧ i ∈ s.held)

/-- Why devices may be asked for: the callee has accepted; or the user has, in this
    tab; or an offer came, which the caller's tab would take too. -/
def Agreed (s : CallOverlay) : Prop :=
  s.outgoing = true ∧ (.accept ∈ s.heard ∨ ∃ p, .offer p ∈ s.heard) ∨
    s.outgoing = false ∧ (s.clicked = true ∨ OfferedFirst s.heard)

/-- The microphones opened, the one asked for and the one that may be. -/
def microphones (s : CallOverlay) : Nat :=
  s.devices.countP (fun d => decide (d.kind = .microphone)) +
    (s.setup.filter fun p => decide (p.1 = .microphone)).toList.length +
    (!s.started).toNat

/-- `setup` has not come to the camera. -/
def early (s : CallOverlay) : Bool :=
  !s.started || (s.setup.any fun p => decide (p.1 = .microphone ∨ p.1 = .camera))

/-- Nothing of the call is there, but perhaps its microphone. -/
def Bare (s : CallOverlay) : Prop :=
  s.sender = false ∧ s.camera = none ∧ s.peer = none ∧ s.view.videoOn = s.video

/-- The camera in use, if it is on, is not the one of `setup`. -/
def ByButton (s : CallOverlay) : Prop :=
  ∀ i d, s.camera = some i → s.devices[i]? = some d → d.kind = .camera → d.live = true →
    d.byButton = true

/-- What was so before, and which events the overlay may be told. -/
structure Past where
  gone : Bool
  clicked : Bool
  outgoing : Bool
  told : CallSignal → Prop

structure Ok (past : Past) (s : CallOverlay) (hand : Option (Nat × Bool)) : Prop where
  gone : past.gone = true → s.dead = true
  stays : past.clicked = true → s.clicked = true
  outgoing : s.outgoing = past.outgoing
  told : ∀ e, e ∈ s.heard ∨ e ∈ s.chain → past.told e
  device : ∀ i d, s.devices[i]? = some d → d.live = true →
    s.Owns i d ∨ s.dead = false ∧ d.kind = .camera ∧ hand = some (i, d.byButton)
  /-- The camera of `setup` is not displaced: nothing turns another one on. -/
  first : s.ByButton ∨ s.view.videoOn = true ∧ ∀ c ∈ s.changes, c.turnsOn = false
  early : s.early = true → s.Bare
  unsent : s.sender = false → ∀ c ∈ s.changes, c.ofCamera = false
  peer : s.dead = true → s.peer = none
  created : s.peer ≠ none → s.started = true
  microphones : s.microphones ≤ 1
  devices : s.devices ≠ [] → s.started = true
  connecting : s.connecting = true → s.started = true
  sender : s.sender = true → s.started = true
  setup : ∀ stage clicked, s.setup = some (stage, clicked) →
    s.started = true ∧ (clicked = true → s.clicked = true) ∧ (stage = .camera → s.video = true)
  agreed : s.started = true → s.Agreed
  /-- A call that rings here has not been answered elsewhere. -/
  quiet : s.dead = false → s.started = false → s.outgoing = false → ∀ e ∈ s.heard, e.isQuiet = true
  clicked : s.clicked = true → s.outgoing = false
  posted : ∀ payload, ("accept", payload) ∈ s.posted → s.clicked = true

section
variable {s : CallOverlay} {hand : Option (Nat × Bool)} {past : Past}

/-! ## One effect -/

theorem Ok.post (h : Ok past s hand) (type : String) (payload : Json)
    (htype : type = "accept" → s.clicked = true) : Ok past (s.post type payload) hand := by
  refine { h with posted := ?_ }
  intro p hp
  rcases List.mem_append.mp hp with hp | hp
  · exact h.posted p hp
  · obtain ⟨rfl, -⟩ := Prod.mk.inj (List.mem_singleton.mp hp)
    exact htype rfl

theorem Ok.say (h : Ok past s hand) (status : String) : Ok past (s.say status) hand := { h with }

/-! ## Devices -/

theorem getElem?_stopWhere {p : Nat → Device → Bool} {i : Nat} {d : Device}
    (hd : (s.stopWhere p).devices[i]? = some d) : ∃ d₀, s.devices[i]? = some d₀ ∧
      d.kind = d₀.kind ∧ d.byButton = d₀.byButton ∧
      (d.live = true → d₀.live = true ∧ p i d₀ = false) := by
  change (s.devices.mapIdx _)[i]? = some d at hd
  rw [List.getElem?_mapIdx] at hd
  obtain ⟨d₀, hd₀, rfl⟩ := Option.map_eq_some_iff.mp hd
  refine ⟨d₀, hd₀, ?_⟩
  split
  · exact ⟨rfl, rfl, fun hlive => absurd hlive Bool.false_ne_true⟩
  · next hnot => exact ⟨rfl, rfl, fun hlive => ⟨hlive, Bool.not_eq_true _ ▸ hnot⟩⟩

theorem kinds_stopWhere (s : CallOverlay) (p : Nat → Device → Bool) :
    (s.stopWhere p).devices.map Device.kind = s.devices.map Device.kind := by
  refine List.ext_getElem? fun i => ?_
  show ((s.devices.mapIdx _).map Device.kind)[i]? = _
  rw [List.getElem?_map, List.getElem?_map, List.getElem?_mapIdx]
  cases s.devices[i]? with
  | none => rfl
  | some d =>
      simp only [Option.map_some]
      split <;> rfl

/-- Devices are stopped; what they were asked for stays. -/
theorem Ok.counted {p : Nat → Device → Bool} (h : Ok past s hand) :
    (s.stopWhere p).microphones ≤ 1 ∧ ((s.stopWhere p).devices ≠ [] → s.started = true) := by
  have hkinds := kinds_stopWhere s p
  constructor
  · have hcount := congrArg (List.countP fun k => decide (k = DeviceKind.microphone)) hkinds
    rw [List.countP_map, List.countP_map] at hcount
    have hmics := h.microphones
    unfold CallOverlay.microphones at hmics ⊢
    exact Nat.le_trans (Nat.le_of_eq (congrArg (fun m => m + _ + _) hcount)) hmics
  · intro hne
    refine h.devices fun hnil => hne ?_
    rw [hnil] at hkinds
    exact List.map_eq_nil_iff.mp hkinds

/-- Who holds a device holds it also when it is described again. -/
theorem Owns.congr {i : Nat} {d d₀ : Device} (h : s.Owns i d₀) (hkind : d.kind = d₀.kind)
    (hbutton : d.byButton = d₀.byButton) : s.Owns i d := by
  unfold Owns at h ⊢
  rw [hkind, hbutton]
  exact h

/-- Who holds a device may hold it in another state too. -/
theorem Owns.imp {s' : CallOverlay} {i : Nat} {d : Device} (h : s.Owns i d)
    (hmic : d.kind = .microphone → s.dead = false → i ∈ s.stream.getD [] →
      s'.dead = false ∧ i ∈ s'.stream.getD [])
    (hcam : d.kind = .camera →
      (s.dead = false ∧ s.camera = some i ∨
        d.byButton = true ∧ (i ∈ s.strays ∨ s.dead = false ∧ i ∈ s.held)) →
      s'.dead = false ∧ s'.camera = some i ∨
        d.byButton = true ∧ (i ∈ s'.strays ∨ s'.dead = false ∧ i ∈ s'.held)) :
    s'.Owns i d := by
  unfold Owns at h ⊢
  cases hk : d.kind with
  | microphone =>
      rw [hk] at h
      exact hmic hk h.1 h.2
  | camera =>
      rw [hk] at h
      exact hcam hk h

theorem Ok.cleanup (h : Ok past s none) : Ok past s.cleanup none := by
  refine { h with
    gone := fun _ => rfl, device := ?_, first := Or.inl fun i d he => by cases he
    early := fun he => ?_, peer := fun _ => rfl, created := fun hne => absurd rfl hne
    microphones := h.counted.1, devices := h.counted.2, quiet := fun he => by cases he }
  · intro i d hd hlive
    obtain ⟨d₀, hd₀, hkind, hbutton, hon⟩ := getElem?_stopWhere hd
    obtain ⟨hlive₀, hkept⟩ := hon hlive
    rw [Bool.or_eq_false_iff, decide_eq_false_iff_not, Bool.and_eq_false_iff] at hkept
    obtain ⟨hcamera, hmic⟩ := hkept
    left
    rcases h.device i d₀ hd₀ hlive₀ with howns | ⟨-, -, hnone⟩
    · refine Owns.congr (howns.imp (fun hk _ hi => ?_) fun _ hin => ?_) hkind hbutton
      -- the stream's microphone is stopped
      · exfalso
        rcases hmic with hnot | hnot
        · simp [hk] at hnot
        · rw [List.contains_iff_mem.mpr hi] at hnot
          cases hnot
      -- and so is the camera; what the changes hold becomes a stray
      · rcases hin with ⟨-, hcam⟩ | ⟨hbut, hstray | ⟨-, hheld⟩⟩
        · exact absurd hcam hcamera
        · exact Or.inr ⟨hbut, Or.inl (List.mem_append_left _ hstray)⟩
        · exact Or.inr ⟨hbut, Or.inl (List.mem_append_right _ hheld)⟩
    · cases hnone
  · obtain ⟨hsender, -, -, hvideo⟩ := h.early he
    exact ⟨hsender, rfl, rfl, hvideo⟩

theorem Ok.finish (h : Ok past s none) {type : String} (htype : type ≠ "accept") :
    Ok past (s.finish type) none :=
  h.cleanup.post type _ fun he => absurd he htype

theorem Ok.endWith (h : Ok past s none) (status : String) : Ok past (s.endWith status) none :=
  { h.cleanup with }

theorem Ok.broken (h : Ok past s none) : Ok past s.broken none := (h.say _).finish (by decide)

theorem held_add (s : CallOverlay) (c : Change) :
    (s.add c).held = s.held ++ c.capture.toList := by
  show (s.changes ++ [c]).filterMap Change.capture = _
  rw [List.filterMap_append]
  cases hc : c.capture <;> simp [held, hc]

/-- Another change goes on beside, perhaps with the capture in hand. -/
theorem Ok.add (h : Ok past s hand) {c : Change} (hsent : c.ofCamera = true → s.sender = true)
    (hon : c.turnsOn = true → s.ByButton)
    (hhand : hand = none ∨ hand = c.capture.map (·, true)) : Ok past (s.add c) none := by
  refine { h with device := ?_, first := ?_, unsent := ?_ }
  · intro i d hd hlive
    left
    rcases h.device i d hd hlive with howns | ⟨hdead, hkind, hi⟩
    · refine howns.imp (fun _ hdead hi => ⟨hdead, hi⟩) fun _ hin => ?_
      refine hin.imp id (And.imp id (Or.imp id (And.imp id fun hheld => ?_)))
      rw [held_add]
      exact List.mem_append_left _ hheld
    · rcases hhand with hnone | hsame
      · rw [hnone] at hi
        cases hi
      · rw [hsame] at hi
        obtain ⟨k, hcap, heq⟩ := Option.map_eq_some_iff.mp hi
        obtain ⟨rfl, hbutton⟩ := Prod.mk.inj heq
        unfold Owns
        rw [hkind]
        refine Or.inr ⟨hbutton.symm, Or.inr ⟨hdead, ?_⟩⟩
        rw [held_add, hcap]
        exact List.mem_append_right _ List.mem_cons_self
  · cases hc : c.turnsOn with
    | true => exact Or.inl (hon hc)
    | false =>
        refine h.first.imp id (And.imp id fun hnone c' hc' => ?_)
        rcases List.mem_append.mp hc' with hc' | hc'
        · exact hnone c' hc'
        · rw [List.mem_singleton.mp hc', hc]
  · intro hsender c' hc'
    rcases List.mem_append.mp hc' with hc' | hc'
    · exact h.unsent hsender c' hc'
    · rw [List.mem_singleton.mp hc']
      cases hc : c.ofCamera with
      | false => rfl
      | true =>
          have hsender : s.sender = false := hsender
          rw [hsent hc] at hsender
          cases hsender

/-- A change is taken up, with its capture. -/
theorem Ok.erase (h : Ok past s none) {k : Nat} {c : Change} (hc : s.changes[k]? = some c) :
    Ok past { s with changes := s.changes.eraseIdx k } (c.capture.map (·, true)) := by
  refine { h with device := ?_, first := ?_, unsent := ?_ }
  · intro i d hd hlive
    rcases h.device i d hd hlive with howns | ⟨-, -, hnone⟩
    · unfold Owns at howns
      unfold Owns
      cases hk : d.kind with
      | microphone =>
          rw [hk] at howns
          exact Or.inl howns
      | camera =>
          rw [hk] at howns
          rcases howns with hcam | ⟨hbutton, hstray | ⟨hdead, hheld⟩⟩
          · exact Or.inl (Or.inl hcam)
          · exact Or.inl (Or.inr ⟨hbutton, Or.inl hstray⟩)
          · obtain ⟨c', hmem, hcap⟩ := List.mem_filterMap.mp hheld
            obtain ⟨j, hj⟩ := List.getElem?_of_mem hmem
            by_cases hjk : j = k
            -- the change that was taken up: its capture is now in hand
            · subst hjk
              rw [hc] at hj
              obtain rfl := Option.some.inj hj
              refine Or.inr ⟨hdead, rfl, ?_⟩
              rw [hcap, hbutton]
              rfl
            · refine Or.inl (Or.inr ⟨hbutton, Or.inr ⟨hdead, ?_⟩⟩)
              refine List.mem_filterMap.mpr ⟨c', ?_, hcap⟩
              exact List.mem_eraseIdx_iff_getElem?.mpr ⟨j, hjk, hj⟩
    · cases hnone
  · exact h.first.imp id (And.imp id fun hnone c' hc' => hnone c' (List.mem_of_mem_eraseIdx hc'))
  · exact fun hsender c' hc' => h.unsent hsender c' (List.mem_of_mem_eraseIdx hc')

/-- A camera of a button takes the place of one of a button. -/
theorem Ok.byButton_takeCamera {i : Nat} (h : Ok past s (some (i, true))) (hother : s.ByButton) :
    (s.takeCamera i).ByButton := by
  intro j d hj hd hk hlive
  obtain rfl := Option.some.inj hj
  rcases h.device i d hd hlive with howns | ⟨-, -, hi⟩
  · unfold Owns at howns
    rw [hk] at howns
    rcases howns with ⟨-, hcam⟩ | ⟨hbutton, -⟩
    · exact hother i d hcam hd hk hlive
    · exact hbutton
  · exact (Prod.mk.inj (Option.some.inj hi)).2.symm

/-- The capture in hand becomes the camera, in place of one of a button. -/
theorem Ok.takeCamera {i : Nat} {byButton : Bool} (h : Ok past s (some (i, byButton)))
    (hother : s.ByButton) (hearly : s.early = false)
    (hfirst : byButton = false → s.view.videoOn = true ∧ ∀ c ∈ s.changes, c.turnsOn = false) :
    Ok past (s.takeCamera i) none := by
  refine { h with device := ?_, first := ?_, early := fun he => ?_ }
  · intro j d hd hlive
    left
    rcases h.device j d hd hlive with howns | ⟨hdead, hkind, hi⟩
    · refine howns.imp (fun _ hdead hmem => ⟨hdead, ?_⟩) fun hk hin => ?_
      · show j ∈ (s.stream.map (· ++ [i])).getD []
        cases hstream : s.stream with
        | none =>
            rw [hstream] at hmem
            exact absurd hmem List.not_mem_nil
        | some tracks =>
            rw [hstream] at hmem
            exact List.mem_append_left _ hmem
      -- the camera that was there becomes a stray, so it must be one of a button
      · rcases hin with ⟨hdead, hcam⟩ | ⟨hbutton, hstray | hheld⟩
        · refine Or.inr ⟨hother j d hcam hd hk hlive, Or.inl ?_⟩
          exact List.mem_append_right _ (Option.mem_toList.mpr hcam)
        · exact Or.inr ⟨hbutton, Or.inl (List.mem_append_left _ hstray)⟩
        · exact Or.inr ⟨hbutton, Or.inr hheld⟩
    · obtain ⟨rfl, -⟩ := Prod.mk.inj (Option.some.inj hi)
      unfold Owns
      rw [hkind]
      exact Or.inl ⟨hdead, rfl⟩
  · cases hb : byButton with
    | false => exact Or.inr (hfirst hb)
    | true =>
        rw [hb] at h
        exact Or.inl (h.byButton_takeCamera hother)
  · have he : s.early = true := he
    rw [hearly] at he
    cases he
theorem byButton_of_none (h : s.camera = none) : s.ByButton := by
  intro i d hi
  rw [h] at hi
  cases hi

/-- A capture is stopped: the camera's, which may go with it, or the one in hand. -/
theorem Ok.turnOff (h : Ok past s hand) (i : Nat) {camera : Option Nat}
    {left : Option (Nat × Bool)} (hcamera : camera = s.camera ∨ camera = none ∧ s.camera = some i)
    (hleft : left = hand ∨ ∃ byButton, hand = some (i, byButton)) :
    Ok past { s.stopDevice i with camera } left := by
  refine { h with
    device := ?_, first := h.first.imp (fun hfirst => ?_) id, early := fun he => ?_
    microphones := h.counted.1, devices := h.counted.2 }
  · intro j d hd hlive
    obtain ⟨d₀, hd₀, hkind, hbutton, hon⟩ := getElem?_stopWhere hd
    obtain ⟨hlive₀, hne⟩ := hon hlive
    rw [decide_eq_false_iff_not] at hne
    rcases h.device j d₀ hd₀ hlive₀ with howns | ⟨hdead, hcam, hj⟩
    · left
      refine Owns.congr (howns.imp (fun _ hdead hi => ⟨hdead, hi⟩) fun _ hin => ?_) hkind hbutton
      refine hin.imp (fun hin => ⟨hin.1, ?_⟩) id
      rcases hcamera with hsame | ⟨-, hi⟩
      · exact hsame.trans hin.2
      · exact absurd (Option.some.inj (hin.2.symm.trans hi)) hne
    · rcases hleft with hsame | ⟨byButton, hi⟩
      · exact Or.inr ⟨hdead, hkind.trans hcam, by rw [hsame, hj, hbutton]⟩
      · exact absurd (Prod.mk.inj (Option.some.inj (hj.symm.trans hi))).1 hne
  · intro j d hj hd hk hlive
    obtain ⟨d₀, hd₀, hkind, hbutton, hon⟩ := getElem?_stopWhere hd
    rcases hcamera with hsame | ⟨hnone, -⟩
    · rw [hbutton]
      exact hfirst j d₀ (hsame.symm.trans hj) hd₀ (hkind.symm.trans hk) (hon hlive).1
    · exact absurd (hnone.symm.trans hj) nofun
  · obtain ⟨hsender, hnone, hpeer, hvideo⟩ := h.early he
    refine ⟨hsender, ?_, hpeer, hvideo⟩
    rcases hcamera with hsame | ⟨hsame, -⟩
    · exact hsame.trans hnone
    · exact hsame

theorem Ok.dropCamera (h : Ok past s hand) : Ok past s.dropCamera hand := by
  unfold CallOverlay.dropCamera
  split
  · exact h
  · next i hi => exact h.turnOff i (Or.inr ⟨rfl, hi⟩) (Or.inl rfl)

@[simp] theorem camera_dropCamera (s : CallOverlay) : s.dropCamera.camera = none := by
  unfold CallOverlay.dropCamera
  split
  · next hnone => exact hnone
  · rfl

@[simp] theorem early_dropCamera (s : CallOverlay) : s.dropCamera.early = s.early := by
  unfold CallOverlay.dropCamera
  split <;> rfl

/-- The microphone's track stays in the stream. -/
theorem Ok.withoutVideo (h : Ok past s hand) : Ok past s.withoutVideo hand := by
  refine { h with device := fun i d hd hlive => (h.device i d hd hlive).imp (fun howns => ?_) id }
  refine howns.imp (fun hk hdead hmem => ⟨hdead, ?_⟩) fun _ => id
  have hother : s.isKind .camera i = false := by
    have hd : s.devices[i]? = some d := hd
    simp [isKind, hd, hk]
  show i ∈ (s.stream.map _).getD []
  cases hstream : s.stream with
  | none =>
      rw [hstream] at hmem
      exact absurd hmem List.not_mem_nil
  | some tracks =>
      rw [hstream] at hmem
      exact List.mem_filter.mpr ⟨hmem, by rw [hother]; rfl⟩

theorem getElem?_opened {kind : DeviceKind} {byButton : Bool} {i : Nat} {d : Device}
    (hd : (s.opened kind byButton).devices[i]? = some d) :
    s.devices[i]? = some d ∨ i = s.devices.length ∧ d = ⟨kind, byButton, !s.dead⟩ := by
  change (s.devices ++ [_])[i]? = some d at hd
  rcases Nat.lt_or_ge i s.devices.length with hlt | hge
  · rw [List.getElem?_append_left hlt] at hd
    exact Or.inl hd
  · rw [List.getElem?_append_right hge, List.getElem?_singleton] at hd
    split at hd
    · exact Or.inr ⟨by omega, (Option.some.inj hd).symm⟩
    · cases hd

theorem ByButton.opened {kind : DeviceKind} {byButton : Bool} (h : s.ByButton)
    (hother : kind = .camera → byButton = true ∨ s.camera = none) :
    (s.opened kind byButton).ByButton := by
  intro i d hi hd hk hlive
  rcases getElem?_opened hd with hd | ⟨rfl, rfl⟩
  · exact h i d hi hd hk hlive
  · rcases hother hk with hbutton | hnone
    · exact hbutton
    · exact absurd (hnone.symm.trans hi) nofun

/-- A camera opens, in the hand of who has asked for it. -/
theorem Ok.openCamera (h : Ok past s none) (hstarted : s.started = true) (byButton : Bool)
    (hother : byButton = true ∨ s.camera = none) :
    Ok past (s.opened .camera byButton) (some (s.devices.length, byButton)) := by
  refine { h with
    device := ?_, first := h.first.imp (·.opened fun _ => hother) id, microphones := ?_
    devices := fun _ => hstarted }
  · intro i d hd hlive
    rcases getElem?_opened hd with hd | ⟨rfl, rfl⟩
    · exact Or.inl ((h.device i d hd hlive).resolve_right fun hin => by cases hin.2.2)
    · have hopen : s.dead = false := by simpa using hlive
      exact Or.inr ⟨hopen, rfl, rfl⟩
  · have hmics := h.microphones
    unfold CallOverlay.microphones at hmics ⊢
    show (s.devices ++ [_]).countP _ + _ + _ ≤ 1
    rw [List.countP_append]
    exact hmics

/-- What a call that is over has opened was stopped at once. -/
theorem Ok.drop (h : Ok past s hand) (hdead : s.dead = true) : Ok past s none := by
  refine { h with device := fun i d hd hlive => Or.inl ?_ }
  refine (h.device i d hd hlive).resolve_right fun hin => ?_
  rw [hdead] at hin
  cases hin.1

/-- The microphone opens, the only one, and the stream is its own. -/
theorem Ok.openMicrophone {stream : Option (List Nat)} (h : Ok past s none)
    (hstarted : s.started = true) (hsetup : s.setup = none)
    (hnone : s.devices.countP (fun d => decide (d.kind = .microphone)) = 0)
    (hstream : s.dead = false → stream = some [s.devices.length]) :
    Ok past { s.opened .microphone false with stream } none := by
  refine { h with
    device := ?_, first := h.first.imp (·.opened nofun) id, microphones := ?_
    devices := fun _ => hstarted }
  · intro i d hd hlive
    left
    rcases getElem?_opened hd with hd | ⟨rfl, rfl⟩
    · have howns := (h.device i d hd hlive).resolve_right fun hin => by cases hin.2.2
      refine howns.imp (fun hk _ _ => ?_) fun _ => id
      have hnot := List.countP_eq_zero.mp hnone d (List.mem_of_getElem? hd)
      simp [hk] at hnot
    · have hopen : s.dead = false := by simpa using hlive
      refine ⟨hopen, ?_⟩
      show s.devices.length ∈ stream.getD []
      rw [hstream hopen]
      exact List.mem_singleton.mpr rfl
  · unfold CallOverlay.microphones
    show (s.devices ++ [_]).countP _ + (s.setup.filter _).toList.length + (!s.started).toNat ≤ 1
    rw [List.countP_append, hnone, hsetup, hstarted]
    rfl

/-! ## setup -/

/-- `setup` goes on, but not with the microphone. -/
theorem Ok.onSetup (h : Ok past s hand) {setup : Option (SetupStage × Bool)}
    (hsetup : ∀ stage clicked, setup = some (stage, clicked) →
      stage ≠ .microphone ∧ s.started = true ∧ (clicked = true → s.clicked = true) ∧
        (stage = .camera → s.video = true ∧ s.Bare)) :
    Ok past { s with setup } hand := by
  have hbare : { s with setup }.early = true → s.Bare := fun he => by
    rcases Bool.or_eq_true _ _ ▸ he with hnew | hany
    · exact h.early (by rw [CallOverlay.early, hnew]; rfl)
    · obtain ⟨⟨stage, clicked⟩, he, hstage⟩ := (Option.any_eq_true _ _).mp hany
      obtain ⟨hne, -, -, hbare⟩ := hsetup stage clicked he
      rcases of_decide_eq_true hstage with hmic | hcam
      · exact absurd hmic hne
      · exact (hbare hcam).2
  refine { h with early := hbare, microphones := ?_, setup := fun stage clicked he => ?_ }
  · have hmics := h.microphones
    have hnone : (setup.filter fun p => decide (p.1 = .microphone)) = none := by
      rw [Option.filter_eq_none_iff]
      rintro ⟨stage, clicked⟩ he
      simpa using (hsetup stage clicked he).1
    unfold CallOverlay.microphones at hmics ⊢
    show s.devices.countP _ + (setup.filter _).toList.length + (!s.started).toNat ≤ 1
    rw [hnone, Option.toList_none, List.length_nil]
    omega
  · obtain ⟨-, hstarted, hclicked, hvideo⟩ := hsetup stage clicked he
    exact ⟨hstarted, hclicked, fun hcam => (hvideo hcam).1⟩

theorem Ok.afterSetup (h : Ok past s none) (offer : Option Json) :
    Ok past (s.afterSetup offer) none := by
  unfold CallOverlay.afterSetup
  split
  · exact { h with }
  · split <;> exact { h with }

theorem Ok.sendAccept (h : Ok past s none) (hclicked : s.clicked = true) :
    Ok past s.sendAccept none := by
  unfold CallOverlay.sendAccept
  split
  · exact h
  · have h' := h.post "accept" (.object []) fun _ => hclicked
    exact h'.add (c := .accepting) (fun he => by cases he) (fun he => by cases he) (Or.inl rfl)

theorem Ok.setupDone (h : Ok past s none) {clicked : Bool}
    (hclicked : clicked = true → s.clicked = true) : Ok past (s.setupDone clicked) none := by
  have h' : Ok past { s with setup := none } none :=
    h.onSetup fun stage clicked he => by cases he
  unfold CallOverlay.setupDone
  dsimp only
  split
  · next hc => exact h'.sendAccept (hclicked hc)
  · split
    · exact h'.afterSetup _
    · exact h'

theorem Ok.refuse (h : Ok past s none) {clicked : Bool} (hstarted : s.started = true)
    (hclicked : clicked = true → s.clicked = true) : Ok past (s.refuse clicked) none := by
  refine Ok.onSetup (s := (s.say _).post "end" (.object []))
    ((h.say _).post _ _ fun he => absurd he (by decide)) ?_
  intro stage c he
  cases he
  exact ⟨by decide, hstarted, hclicked, fun he => by cases he⟩

theorem Ok.connect (h : Ok past s none) {clicked : Bool} (hstarted : s.started = true)
    (hclicked : clicked = true → s.clicked = true) : Ok past (s.connect clicked) none := by
  have h' : Ok past { s with
      connecting := true
      view := { s.view with phase := .connecting, status := "Connecting..." } } none :=
    { h with connecting := fun _ => hstarted }
  exact h'.setupDone hclicked

theorem Ok.createPeer (h : Ok past s none) {clicked : Bool} (creates : Bool)
    (hstarted : s.started = true) (hclicked : clicked = true → s.clicked = true)
    (hopen : s.dead = false) (hlate : s.early = false) :
    Ok past (s.createPeer clicked creates) none := by
  have h' : Ok past { s with peer := some {} } none := by
    refine { h with
      early := fun he => absurd (hlate.symm.trans he) nofun
      peer := fun hdead => absurd (hopen.symm.trans hdead) nofun
      created := fun _ => hstarted }
  unfold CallOverlay.createPeer
  split
  · exact h.refuse hstarted hclicked
  · split
    · refine h'.onSetup fun stage c he => ?_
      cases he
      exact ⟨by decide, hstarted, hclicked, fun he => by cases he⟩
    · exact h'.connect hstarted hclicked

/-- What `setup` does next does not depend on where it is. -/
theorem settleSetup_eq (s : CallOverlay) (stage : SetupStage) (clicked creates : Bool)
    (d : CallSettled) : s.settleSetup stage clicked creates d =
      { s with setup := none }.settleSetup stage clicked creates d := by
  cases stage with
  | microphone =>
      unfold settleSetup
      dsimp only
      split
      · rfl
      · split
        · next hdead => exact (if_pos hdead).symm
        · next hdead => exact (if_neg hdead).symm
  | camera =>
      unfold settleSetup
      dsimp only
      split
      · rfl
      · split
        · next hdead => exact (if_pos hdead).symm
        · next hdead => exact (if_neg hdead).symm
  | attach => rfl
  | refused => rfl

theorem Ok.settleSetup {stage : SetupStage} {clicked : Bool} (h : Ok past s none)
    (hsetup : s.setup = some (stage, clicked)) (creates : Bool) (d : CallSettled) :
    Ok past (s.settleSetup stage clicked creates d) none := by
  obtain ⟨hstarted, hclicked, hvideo⟩ := h.setup stage clicked hsetup
  have hmics := h.microphones
  have hbare : stage = .microphone ∨ stage = .camera → s.Bare := fun hstage =>
    h.early (by rw [CallOverlay.early, hsetup, hstarted]; exact decide_eq_true hstage)
  have hlate : { s with setup := none }.early = false := by
    show (!s.started || false) = false
    rw [hstarted]
    rfl
  rw [settleSetup_eq]
  have h₀ : Ok past { s with setup := none } none := h.onSetup fun stage clicked he => by cases he
  cases stage with
  | microphone =>
      unfold CallOverlay.settleSetup
      dsimp only
      split
      · exact h₀.refuse hstarted hclicked
      -- the one that may be opened is this one
      · have hnone : s.devices.countP (fun d => decide (d.kind = .microphone)) = 0 := by
          rw [CallOverlay.microphones, hsetup] at hmics
          change s.devices.countP _ + 1 + _ ≤ 1 at hmics
          omega
        split
        · next hdead =>
            have hdead : s.dead = true := hdead
            have h₁ : Ok past ({ s with setup := none }.opened .microphone false) none :=
              h₀.openMicrophone hstarted rfl hnone fun hopen =>
                absurd (hdead.symm.trans hopen) nofun
            exact h₁.setupDone hclicked
        · next hdead =>
            have hopen : s.dead = false := Bool.not_eq_true _ ▸ hdead
            have h₁ : Ok past { { s with setup := none }.opened .microphone false with
                stream := some [s.devices.length] } none :=
              h₀.openMicrophone hstarted rfl hnone fun _ => rfl
            split
            · next hcamera =>
                refine h₁.onSetup fun stage c he => ?_
                cases he
                exact ⟨by decide, hstarted, hclicked, fun _ => ⟨hcamera, hbare (Or.inl rfl)⟩⟩
            · exact h₁.createPeer creates hstarted hclicked hopen hlate
  | camera =>
      unfold CallOverlay.settleSetup
      dsimp only
      split
      · exact h₀.refuse hstarted hclicked
      · obtain ⟨hsender, hcamera, -, hon⟩ := hbare (Or.inr rfl)
        have h₁ := h₀.openCamera hstarted false (Or.inr hcamera)
        split
        · next hdead => exact (h₁.drop hdead).setupDone hclicked
        · next hdead =>
            -- No change of the camera can be under way before there is a sender.
            have hidle : ∀ c ∈ s.changes, c.turnsOn = false := fun c hc =>
              turnsOn_of_not_ofCamera (h.unsent hsender c hc)
            have h₂ := h₁.takeCamera (byButton_of_none hcamera) hlate fun _ =>
              ⟨hon.trans (hvideo rfl), hidle⟩
            exact h₂.createPeer creates hstarted hclicked (Bool.not_eq_true _ ▸ hdead) hlate
  | attach =>
      unfold CallOverlay.settleSetup
      dsimp only
      split
      · exact h₀.refuse hstarted hclicked
      · have h₁ : Ok past { s with setup := none, sender := true } none :=
          { h₀ with
            early := fun he => absurd (hlate.symm.trans he) nofun
            unsent := fun he => by cases he
            sender := fun _ => hstarted }
        exact h₁.connect hstarted hclicked
  | refused =>
      have h₁ : Ok past { { s with setup := none }.cleanup with
          view := { s.view with phase := .ended } } none := { h₀.cleanup with }
      exact h₁.setupDone hclicked

/-- Devices are asked for, once. -/
theorem Ok.start (h : Ok past s none) (hnew : s.started = false) {clicked : Bool}
    (hagreed : s.Agreed) (hclicked : clicked = true → s.clicked = true)
    (waiting : Option Handling) :
    Ok past { s with started := true, setup := some (.microphone, clicked), waiting } none := by
  have hmics := h.microphones
  refine { h with
    early := fun _ => h.early (by rw [CallOverlay.early, hnew]; rfl)
    microphones := ?_
    devices := fun _ => rfl
    created := fun _ => rfl
    connecting := fun _ => rfl
    sender := fun _ => rfl
    setup := ?_
    agreed := fun _ => hagreed
    quiet := fun _ hnot => by cases hnot }
  · rw [CallOverlay.microphones, hnew] at hmics
    change _ + _ + 1 ≤ 1 at hmics
    show s.devices.countP _ + 1 + 0 ≤ 1
    omega
  · intro stage c he
    cases he
    exact ⟨rfl, hclicked, fun he => by cases he⟩

theorem Ok.callSetup (h : Ok past s none) (hagreed : s.Agreed) (offer : Option Json) :
    Ok past (s.callSetup offer) none := by
  unfold CallOverlay.callSetup
  split
  · exact h.afterSetup offer
  · next hnot =>
      exact h.start (Bool.not_eq_true _ ▸ hnot) hagreed (fun hc => by cases hc) _

theorem Ok.accept (h : Ok past s none) (hincoming : s.outgoing = false) :
    Ok past s.accept none := by
  have h' : Ok past { s with clicked := true } none :=
    { h with
      stays := fun _ => rfl
      setup := fun stage c he => ⟨(h.setup stage c he).1, fun _ => rfl, (h.setup stage c he).2.2⟩
      agreed := fun _ => Or.inr ⟨hincoming, Or.inl rfl⟩
      clicked := fun _ => hincoming
      posted := fun _ _ => rfl }
  unfold CallOverlay.accept
  dsimp only
  split
  · exact h'.sendAccept rfl
  · next hnot =>
      exact h'.start (Bool.not_eq_true _ ▸ hnot) (Or.inr ⟨hincoming, Or.inl rfl⟩) (fun _ => rfl) _

/-! ## Events -/

theorem Ok.afterPending (h : Ok past s none) (offer : Bool) (l : List Json) :
    Ok past (s.afterPending offer l) none := by
  cases l with
  | nil => exact { h with }
  | cons c rest => exact { h with }

theorem Ok.splice (h : Ok past s none) (offer : Bool) : Ok past (s.splice offer) none := by
  have h' : Ok past { s with pending := [] } none := { h with }
  exact h'.afterPending offer s.pending

theorem Agreed.hear (h : s.Agreed) (e : CallSignal) :
    Agreed { s with heard := s.heard ++ [e] } := by
  rcases h with ⟨hout, hmem | ⟨p, hmem⟩⟩ | ⟨hout, hclicked | hfirst⟩
  · exact Or.inl ⟨hout, Or.inl (List.mem_append_left _ hmem)⟩
  · exact Or.inl ⟨hout, Or.inr ⟨p, List.mem_append_left _ hmem⟩⟩
  · exact Or.inr ⟨hout, Or.inl hclicked⟩
  · exact Or.inr ⟨hout, Or.inr (hfirst.append [e])⟩

theorem told_hear {told : CallSignal → Prop} {e : CallSignal}
    (h : ∀ e', e' ∈ s.heard ∨ e' ∈ s.chain → told e') (htold : told e) :
    ∀ e', e' ∈ s.heard ++ [e] ∨ e' ∈ s.chain → told e' := by
  intro e' he'
  rcases he' with he' | he'
  · rcases List.mem_append.mp he' with he' | he'
    · exact h e' (Or.inl he')
    · rw [List.mem_singleton.mp he']
      exact htold
  · exact h e' (Or.inr he')

/-- Another event is handled. -/
theorem Ok.hear (h : Ok past s none) {e : CallSignal} (htold : past.told e)
    (hquiet : e.isQuiet = true ∨ s.started = true ∨ s.outgoing = true) :
    Ok past { s with heard := s.heard ++ [e] } none := by
  refine { h with
    told := told_hear h.told htold
    agreed := fun hstarted => ?_
    quiet := fun hopen hnot hincoming e' he' => ?_ }
  · exact (h.agreed hstarted).hear e
  · have hnot : s.started = false := hnot
    have hincoming : s.outgoing = false := hincoming
    rw [hnot, hincoming] at hquiet
    rcases List.mem_append.mp he' with he' | he'
    · exact h.quiet hopen hnot hincoming e' he'
    · rw [List.mem_singleton.mp he']
      rcases hquiet with hq | hfalse | hfalse
      · exact hq
      · cases hfalse
      · cases hfalse

/-- An event that ends the call here is handled. -/
theorem Ok.hearEnd (h : Ok past s none) {e : CallSignal} (htold : past.told e) (status : String) :
    Ok past ({ s with heard := s.heard ++ [e] }.endWith status) none := by
  have h' := h.endWith status
  refine { h' with
    told := told_hear h.told htold, agreed := fun hstarted => ?_, quiet := fun hopen => ?_ }
  · exact (h'.agreed hstarted).hear e
  · cases hopen

theorem Ok.handle (h : Ok past s none) {e : CallSignal} (htold : past.told e) :
    Ok past (s.handle e) none := by
  unfold CallOverlay.handle
  split
  · exact h
  · next hdead =>
      have hopen : s.dead = false := Bool.not_eq_true _ ▸ hdead
      dsimp only
      cases e with
      | accept =>
          dsimp only
          split
          · next hout =>
              refine (h.hear htold (Or.inr (Or.inr hout))).callSetup (Or.inl ⟨hout, Or.inl ?_⟩) none
              exact List.mem_append_right _ (List.mem_singleton.mpr rfl)
          · split
            · next hconnecting => exact h.hear htold (Or.inr (Or.inl (h.connecting hconnecting)))
            · exact h.hearEnd htold _
      | ended => exact h.hearEnd htold _
      | decline => exact h.hearEnd htold _
      | offer p =>
          have h' : Ok past { s with heard := s.heard ++ [.offer p] } none :=
            h.hear htold (Or.inl rfl)
          refine h'.callSetup ?_ (some p)
          rcases Bool.eq_false_or_eq_true s.started with hst | hst
          · exact h'.agreed hst
          · rcases Bool.eq_false_or_eq_true s.outgoing with hout | hout
            · refine Or.inl ⟨hout, Or.inr ⟨p, ?_⟩⟩
              exact List.mem_append_right _ (List.mem_singleton.mpr rfl)
            · exact Or.inr ⟨hout, Or.inr ⟨s.heard, p, [], rfl, h.quiet hopen hst hout⟩⟩
      | answer p =>
          dsimp only
          split
          · exact h.hear htold (Or.inl rfl)
          · exact { h.hear htold (Or.inl rfl) with }
      | ice c =>
          dsimp only
          split
          · exact { h.hear htold (Or.inl rfl) with }
          · exact { h.hear htold (Or.inl rfl) with }
      | media p =>
          dsimp only
          split
          · exact (h.hear htold (Or.inl rfl)).broken
          · exact { h.hear htold (Or.inl rfl) with }

/-- The connection in use takes another state. -/
theorem Ok.withPeer {p : CallPeer} (h : Ok past s none) (hpeer : s.peer = some p) (q : CallPeer) :
    Ok past { s with peer := some q } none := by
  refine { h with
    early := fun he => ?_, peer := fun hdead => ?_
    created := fun _ => h.created (by rw [hpeer]; simp) }
  · rw [(h.early he).2.2.1] at hpeer
    cases hpeer
  · rw [h.peer hdead] at hpeer
    cases hpeer

theorem Ok.proceed {p : CallPeer} (h : Ok past s none) (hpeer : s.peer = some p) (d : CallSettled)
    (w : Handling) : Ok past (s.proceed p d w) none := by
  cases w with
  | setup offer | send => exact h
  | createOffer | createAnswer => exact { h with }
  | setLocalDescription offer desc =>
      have h' : Ok past { s with
          peer := some { p with localDescription := some desc }, waiting := some .send } none :=
        { h.withPeer hpeer { p with localDescription := some desc } with }
      exact h'.post _ desc fun he => absurd he (by cases offer <;> decide)
  | setRemoteDescription offer desc =>
      have h' := h.withPeer hpeer { p with remoteDescription := some desc }
      unfold CallOverlay.proceed
      dsimp only
      split
      · exact h'.splice false
      · split
        · exact { h' with }
        · exact h'
  | attach =>
      have h' : Ok past { s with sender := true } none := by
        refine { h with
          early := fun he => ?_, unsent := fun he => by cases he
          sender := fun _ => h.created (by rw [hpeer]; simp) }
        rw [(h.early he).2.2.1] at hpeer
        cases hpeer
      exact h'.splice true
  | addPending offer c rest =>
      exact (h.withPeer hpeer { p with candidates := p.candidates ++ [c] }).afterPending offer rest
  | addIceCandidate c => exact h.withPeer hpeer { p with candidates := p.candidates ++ [c] }

theorem Ok.settle (h : Ok past s none) (w : Handling) (d : CallSettled) :
    Ok past (s.settle w d) none := by
  have h' : Ok past { s with waiting := none } none := { h with }
  cases w with
  | send =>
      unfold CallOverlay.settle
      dsimp only
      split
      · exact h'.broken
      · exact h'
  | _ =>
      -- All that is awaited of the connection settles alike.
      unfold CallOverlay.settle
      dsimp only
      split
      · exact h'.broken
      · next p hp =>
          split
          · exact h'.broken
          · exact h'.proceed hp d _

theorem Ok.turn {s' : CallOverlay} {d : CallSettled} (h : Ok past s none)
    (hturn : s.turn d = some s') : Ok past s' none := by
  unfold CallOverlay.turn at hturn
  split at hturn
  · cases hturn
  · exact Option.some.inj hturn ▸ h.settle _ d
  · next e rest _ hchain =>
      have h' : Ok past { s with chain := rest } none :=
        { h with told := fun e' he' => h.told e' (he'.imp id fun hin => hchain ▸ .tail e hin) }
      have htold : past.told e := h.told e (Or.inr (hchain ▸ List.mem_cons_self))
      exact Option.some.inj hturn ▸ h'.handle htold
  · cases hturn

/-! ## Camera changes and requests -/

theorem Ok.tell (h : Ok past s none) (hother : s.ByButton) (hlate : s.early = false)
    (on muted : Bool) : Ok past (s.tell on muted) none := by
  have h' := h.post "media" (.object [("video", .bool on), ("audio", .bool !muted)])
    fun he => absurd he (by decide)
  have h'' : Ok past { s.post "media" (.object [("video", .bool on), ("audio", .bool !muted)]) with
      view := { s.view with videoOn := on } } none :=
    { h' with first := Or.inl hother, early := fun he => absurd (hlate.symm.trans he) nofun }
  exact h''.add (c := .telling cameraComplaint) (fun he => by cases he) (fun he => by cases he)
    (Or.inl rfl)

theorem Ok.mute (h : Ok past s none) : Ok past s.mute none := by
  have h' := h.post "media"
    (.object [("video", .bool s.view.videoOn), ("audio", .bool s.view.muted)])
    fun he => absurd he (by decide)
  have h'' : Ok past { s.post "media"
      (.object [("video", .bool s.view.videoOn), ("audio", .bool s.view.muted)]) with
      view := { s.view with muted := !s.view.muted } } none := { h' with }
  exact h''.add (c := .telling _) (fun he => by cases he) (fun he => by cases he) (Or.inl rfl)

theorem Ok.toggleVideo (h : Ok past s none) : Ok past s.toggleVideo none := by
  unfold CallOverlay.toggleVideo
  split
  · exact h
  · next hnot =>
      rw [not_or, Bool.not_eq_false] at hnot
      split
      · exact h.add (fun _ => hnot.2) (fun he => by cases he) (Or.inl rfl)
      · next hoff =>
          refine h.add (fun _ => hnot.2) (fun _ => ?_) (Or.inl rfl)
          exact h.first.resolve_right fun hon => hoff hon.1

theorem Ok.switchCamera (h : Ok past s none) : Ok past s.switchCamera none := by
  unfold CallOverlay.switchCamera
  split
  · exact h
  · next hnot =>
      rw [not_or, not_or, Bool.not_eq_false, Bool.not_eq_false] at hnot
      exact h.add (fun _ => hnot.2.1) (fun he => by cases he) (Or.inl rfl)

theorem Ok.settleChange {c : Change} (h : Ok past s (c.capture.map (·, true)))
    (hsent : c.ofCamera = true → s.sender = true) (hon : c.turnsOn = true → s.ByButton)
    (d : CallSettled) : Ok past (s.settleChange c d) none := by
  have hlate : c.ofCamera = true → s.early = false := fun hc => by
    by_contra hearly
    rw [(h.early (Bool.not_eq_false _ ▸ hearly)).1] at hsent
    exact absurd (hsent hc) nofun
  cases c with
  | accepting =>
      unfold CallOverlay.settleChange
      dsimp only
      split
      · exact Ok.endWith h _
      · exact h
  | beating =>
      unfold CallOverlay.settleChange
      dsimp only
      split
      · exact Ok.endWith h _
      · exact h
  | telling complaint =>
      unfold CallOverlay.settleChange
      dsimp only
      split
      · exact Ok.say h _
      · exact h
  | dropping muted =>
      unfold CallOverlay.settleChange
      dsimp only
      split
      · exact Ok.say h _
      · have h' := Ok.withoutVideo (Ok.dropCamera h)
        refine h'.tell (byButton_of_none (camera_dropCamera s)) ?_ false muted
        exact (early_dropCamera s).trans (hlate rfl)
  | requesting muted =>
      unfold CallOverlay.settleChange
      dsimp only
      split
      · exact Ok.say h _
      · have h' := Ok.openCamera h (h.sender (hsent rfl)) true (Or.inl rfl)
        split
        · next hdead => exact h'.drop hdead
        · refine h'.add (c := .replacing _ muted) (fun _ => hsent rfl) (fun _ => ?_) (Or.inr rfl)
          exact (hon rfl).opened fun _ => Or.inl rfl
  | replacing i muted =>
      unfold CallOverlay.settleChange
      dsimp only
      split
      · exact Ok.say (h.turnOff i (Or.inl rfl) (Or.inr ⟨true, rfl⟩)) _
      · have h' := h.takeCamera (hon rfl) (hlate rfl) fun he => by cases he
        exact h'.tell (h.byButton_takeCamera (hon rfl)) (hlate rfl) true muted
  | switching facing =>
      unfold CallOverlay.settleChange
      dsimp only
      split
      · exact Ok.say h _
      · have h' := Ok.openCamera h (h.sender (hsent rfl)) true (Or.inl rfl)
        split
        · next hdead => exact h'.drop hdead
        · exact h'.add (c := .handing _ facing) (fun _ => hsent rfl) (fun he => by cases he)
            (Or.inr rfl)
  | handing i facing =>
      unfold CallOverlay.settleChange
      dsimp only
      split
      · exact Ok.say (h.turnOff i (Or.inl rfl) (Or.inr ⟨true, rfl⟩)) _
      · have hdropped : Ok past s.dropCamera.withoutVideo (some (i, true)) :=
          h.dropCamera.withoutVideo
        have h' := hdropped.takeCamera (byButton_of_none (camera_dropCamera s))
          ((early_dropCamera s).trans (hlate rfl)) fun he => by cases he
        exact { h' with }

/-! ## Every run -/

theorem Ok.step {s' : CallOverlay} {input : CallInput} (h : Ok past s none)
    (htold : ∀ e, input = .received e → past.told e) (hstep : s.step input = some s') :
    Ok past s' none := by
  cases input with
  | received e =>
      obtain ⟨-, heq⟩ := Option.ite_none_right_eq_some.mp hstep
      obtain rfl := Option.some.inj heq
      refine { h with told := fun e' he' => ?_ }
      rcases he' with he' | he'
      · exact h.told e' (Or.inl he')
      · rcases List.mem_append.mp he' with he' | he'
        · exact h.told e' (Or.inr he')
        · rw [List.mem_singleton.mp he']
          exact htold e rfl
  | transportClosed =>
      obtain ⟨-, heq⟩ := Option.ite_none_right_eq_some.mp hstep
      exact Option.some.inj heq ▸ h.endWith _
  | turn d => exact h.turn hstep
  | setup creates d =>
      obtain ⟨⟨stage, clicked⟩, hsetup, rfl⟩ := Option.map_eq_some_iff.mp hstep
      exact h.settleSetup hsetup creates d
  | change i d =>
      obtain ⟨c, hc, rfl⟩ := Option.map_eq_some_iff.mp hstep
      have hmem : c ∈ s.changes := List.mem_of_getElem? hc
      refine (h.erase hc).settleChange (fun hcamera => ?_) (fun hturns => ?_) d
      · by_contra hsender
        rw [h.unsent (Bool.not_eq_true _ ▸ hsender) c hmem] at hcamera
        cases hcamera
      -- a change that turns the camera on was begun with the camera off
      · refine h.first.resolve_right fun hidle => ?_
        rw [hidle.2 c hmem] at hturns
        cases hturns
  | candidate c =>
      obtain ⟨-, heq⟩ := Option.ite_none_right_eq_some.mp hstep
      exact Option.some.inj heq ▸ h.post _ c fun he => absurd he (by decide)
  | connectionState state =>
      obtain ⟨-, heq⟩ := Option.ite_none_right_eq_some.mp hstep
      obtain rfl := Option.some.inj heq
      split
      · exact { h with }
      · split
        · exact (h.say _).finish (by decide)
        · exact h
  | acceptClicked =>
      obtain ⟨⟨-, -, hincoming⟩, heq⟩ := Option.ite_none_right_eq_some.mp hstep
      exact Option.some.inj heq ▸ h.accept hincoming
  | endClicked =>
      obtain ⟨-, heq⟩ := Option.ite_none_right_eq_some.mp hstep
      obtain rfl := Option.some.inj heq
      split
      · exact h
      · exact h.finish (by split <;> decide)
  | cancelled =>
      obtain ⟨-, heq⟩ := Option.ite_none_right_eq_some.mp hstep
      exact Option.some.inj heq ▸ h.finish (by decide)
  | toggleClicked =>
      obtain ⟨-, heq⟩ := Option.ite_none_right_eq_some.mp hstep
      exact Option.some.inj heq ▸ h.toggleVideo
  | flipClicked =>
      obtain ⟨-, heq⟩ := Option.ite_none_right_eq_some.mp hstep
      exact Option.some.inj heq ▸ h.switchCamera
  | muteClicked =>
      obtain ⟨-, heq⟩ := Option.ite_none_right_eq_some.mp hstep
      exact Option.some.inj heq ▸ h.mute
  | pageHidden =>
      obtain ⟨-, heq⟩ := Option.ite_none_right_eq_some.mp hstep
      obtain rfl := Option.some.inj heq
      split
      · exact h
      · exact h.finish (by decide)
  | ringingTimeout =>
      obtain ⟨-, heq⟩ := Option.ite_none_right_eq_some.mp hstep
      obtain rfl := Option.some.inj heq
      split
      · exact h.finish (by decide)
      · exact h
  | connectingTimeout connected =>
      obtain ⟨-, heq⟩ := Option.ite_none_right_eq_some.mp hstep
      obtain rfl := Option.some.inj heq
      split
      · exact (h.post _ _ fun he => absurd he (by decide)).endWith _
      · exact h
  | beat =>
      obtain ⟨-, heq⟩ := Option.ite_none_right_eq_some.mp hstep
      obtain rfl := Option.some.inj heq
      split
      · have h' := h.post "heartbeat" (.object []) fun he => absurd he (by decide)
        exact h'.add (c := .beating) (fun he => by cases he) (fun he => by cases he) (Or.inl rfl)
      · exact h
  | unmount =>
      obtain ⟨-, heq⟩ := Option.ite_none_right_eq_some.mp hstep
      obtain rfl := Option.some.inj heq
      have h' : Ok past (if s.dead then s else s.post "end" (.object [])) none := by
        split
        · exact h
        · exact h.post _ _ fun he => absurd he (by decide)
      exact { h'.cleanup with }

theorem ok_init {outgoing : Bool} (video : Bool) (told : CallSignal → Prop) :
    Ok ⟨false, false, outgoing, told⟩ (init outgoing video) none where
  gone := nofun
  stays := nofun
  outgoing := rfl
  told := fun e he => by rcases he with he | he <;> cases he
  device := nofun
  first := Or.inl nofun
  early := fun _ => ⟨rfl, rfl, rfl, rfl⟩
  unsent := fun _ => nofun
  peer := nofun
  created := fun h => absurd rfl h
  microphones := Nat.le_refl 1
  devices := fun h => absurd rfl h
  connecting := nofun
  sender := nofun
  setup := nofun
  agreed := nofun
  quiet := fun _ _ _ => nofun
  clicked := nofun
  posted := nofun

/-- From here on. -/
theorem Ok.renew (h : Ok past s none) :
    Ok { past with gone := s.dead, clicked := s.clicked } s none :=
  { h with gone := id, stays := id }

theorem ok_runFrom {outgoing video : Bool} {more : List CallInput} {t : CallOverlay}
    (h : Ok past s none) (htold : ∀ e, past.told e)
    (hrun : (callOverlay outgoing video).runFrom s more = some t) : Ok past t none :=
  Machine.runFrom_invariant (P := fun s => Ok past s none)
    (fun _ _ _ hs hstep => hs.step (fun e _ => htold e) hstep) hrun h

/-- A device that is on after the call is a camera that no reference leads to. -/
theorem Ok.stray (h : Ok past s none) (hdead : s.dead = true) {i : Nat} {d : Device}
    (hd : s.devices[i]? = some d) (hlive : d.live = true) :
    d.kind = .camera ∧ d.byButton = true ∧ i ∈ s.strays := by
  have howns := (h.device i d hd hlive).resolve_right fun hin => by cases hin.2.2
  unfold Owns at howns
  rw [hdead] at howns
  cases hk : d.kind with
  | microphone =>
      rw [hk] at howns
      cases howns.1
  | camera =>
      rw [hk] at howns
      rcases howns with ⟨hopen, -⟩ | ⟨hbutton, hstray | ⟨hopen, -⟩⟩
      · cases hopen
      · exact ⟨rfl, hbutton, hstray⟩
      · cases hopen

end

end CallOverlay

/-- No device is opened before the call is agreed, and at most one microphone; Accept
    is sent only for a click.  When the call has ended it stays so, without a
    connection, and nothing is on of what `setup` opened, also when it opens late; a
    camera that a button asked for can stay on only if a second one took its place or
    the end came while it was handed to the connection. -/
theorem devices_released {outgoing video : Bool} {inputs : List CallInput} {s : CallOverlay}
    (hrun : (callOverlay outgoing video).run inputs = some s) :
    (s.devices ≠ [] → s.Agreed) ∧
    s.devices.countP (fun d => decide (d.kind = .microphone)) ≤ 1 ∧
    (∀ payload, ("accept", payload) ∈ s.posted → s.outgoing = false ∧ s.clicked = true) ∧
    (s.dead = true → ∀ more t, (callOverlay outgoing video).runFrom s more = some t →
      t.dead = true ∧ t.peer = none ∧
      ∀ i d, t.devices[i]? = some d → d.live = true →
        d.kind = .camera ∧ d.byButton = true ∧ i ∈ t.strays) := by
  have h := CallOverlay.ok_runFrom (CallOverlay.ok_init video fun _ => True) (fun _ => trivial) hrun
  refine ⟨fun hne => h.agreed (h.devices hne), ?_, fun payload hmem => ?_, ?_⟩
  · have hmics := h.microphones
    unfold CallOverlay.microphones at hmics
    omega
  · have hclicked := h.posted payload hmem
    exact ⟨h.clicked hclicked, hclicked⟩
  · intro hdead more t hmore
    have ht := CallOverlay.ok_runFrom h.renew (fun _ => trivial) hmore
    have hover : t.dead = true := ht.gone hdead
    exact ⟨hover, ht.peer hover, fun i d hd hlive => ht.stray hover hd hlive⟩

/-- The caller turns the camera on twice before the first one has opened, and ends
    the call. -/
def hastyCaller : List CallInput :=
  [.received .accept, .turn {}, .setup true {}, .setup true {}, .toggleClicked, .toggleClicked,
    .change 0 {}, .change 0 {}, .change 0 {}, .change 0 {}, .endClicked]

theorem devices_released_hastyCaller : ∃ s, (callOverlay true false).run hastyCaller = some s ∧
    s.devices = [⟨.microphone, false, false⟩, ⟨.camera, true, true⟩, ⟨.camera, true, false⟩] ∧
    ∀ more t, (callOverlay true false).runFrom s more = some t → t.dead = true ∧ t.peer = none := by
  have hobs : ((callOverlay true false).run hastyCaller).map (fun s => (s.dead, s.devices)) =
      some (true, [⟨.microphone, false, false⟩, ⟨.camera, true, true⟩,
        ⟨.camera, true, false⟩]) := by
    decide +kernel
  obtain ⟨s, hs, hobs⟩ := Option.map_eq_some_iff.mp hobs
  obtain ⟨hdead, hdevices⟩ := Prod.mk.inj hobs
  refine ⟨s, hs, hdevices, fun more t hmore => ?_⟩
  obtain ⟨hover, hnone, -⟩ := (devices_released hs).2.2.2 hdead more t hmore
  exact ⟨hover, hnone⟩

end OneMinute.Web

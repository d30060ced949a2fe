import ProjectSensor.Bsp.Hal

/-!
# How often a driver is initialised

`m_openFlag` holds the bit of the initialised device together with the mode the device is open in.
Opening replaces the word by the mode, and a mode without the bit makes the device look
uninitialised to the next call.
-/

open ProjectSensor.Library ProjectSensor.Library.ByteMemory ProjectSensor.Library.Transition

namespace ProjectSensor.Bsp.Hal

variable {D σ : Type*} [DecidableEq D] {info : D → DeviceAbstractInfo σ} {pdev : D}
  {init : World σ → DeviceStatusType × World σ}

/-- The device is among those a call is about. -/
def Reaches (pdev : D) (h : Hal D σ) : HalAction D → Prop
  | .initAll => pdev ∈ h.deviceList
  | .init pdev' => pdev' = some pdev
  | .open pdev' _ => pdev' = some pdev

/-- A call that reaches the device while it is open finds the bit set. -/
def FindsActivated (pdev : D) (h : Hal D σ) (action : HalAction D) : Prop :=
  h.Reaches pdev action → h.openFlag pdev &&& deviceOflagOpen ≠ 0 →
    h.openFlag pdev &&& deviceFlagActivated ≠ 0

instance decidableReaches (h : Hal D σ) : DecidablePred (h.Reaches pdev)
  | .initAll => inferInstanceAs (Decidable (pdev ∈ h.deviceList))
  | .init pdev' => inferInstanceAs (Decidable (pdev' = some pdev))
  | .open pdev' _ => inferInstanceAs (Decidable (pdev' = some pdev))

instance decidableFindsActivated (h : Hal D σ) (action : HalAction D) :
    Decidable (h.FindsActivated pdev action) :=
  inferInstanceAs (Decidable (_ → _ → _))

/-- The flag word of a device and the calls of its init function. -/
def view (h : Hal D σ) (pdev : D) : BitVec 16 × ℕ := (h.openFlag pdev, h.initCalls pdev)

/-- What is left of a device that is initialised if need be. -/
def afterInit (v : BitVec 16 × ℕ) : BitVec 16 × ℕ :=
  if v.1 &&& deviceFlagActivated = 0 then (v.1 ||| deviceFlagActivated, v.2 + 1) else v

theorem activated_or (flag : BitVec 16) :
    (flag ||| deviceFlagActivated) &&& deviceFlagActivated ≠ 0 := by
  intro hzero
  have hbit := congrArg (BitVec.getLsbD · 4) hzero
  simp [deviceFlagActivated] at hbit

theorem open_or (flag : BitVec 16) : (flag ||| deviceOflagOpen) &&& deviceOflagOpen ≠ 0 := by
  intro hzero
  have hbit := congrArg (BitVec.getLsbD · 3) hzero
  simp [deviceOflagOpen] at hbit

theorem afterInit_activated (v : BitVec 16 × ℕ) :
    (afterInit v).1 &&& deviceFlagActivated ≠ 0 := by
  unfold afterInit
  split
  · exact activated_or v.1
  · assumption

@[simp]
theorem afterInit_afterInit (v : BitVec 16 × ℕ) : afterInit (afterInit v) = afterInit v :=
  if_neg (afterInit_activated v)

/-! ### What each call does to one device -/

theorem view_callInit_self (h : Hal D σ) (hok : (init h.world).1 = .ok) :
    (h.callInit pdev init).2.view pdev =
      ((h.view pdev).1 ||| deviceFlagActivated, (h.view pdev).2 + 1) := by
  simp [callInit, hok, view, openFlagSet]

theorem view_callInit_of_ne (h : Hal D σ) {other : D} (hne : other ≠ pdev) :
    (h.callInit pdev init).2.view other = h.view other := by
  unfold callInit
  simp only
  split <;> simp [view, openFlagSet, hne]

section

variable (hinit : (info pdev).pfinit = some init) (hok : ∀ world, (init world).1 = .ok)

include hinit hok

theorem view_deviceInit_self (h : Hal D σ) :
    (h.deviceInit info pdev).2.view pdev = afterInit (h.view pdev) := by
  unfold deviceInit afterInit
  rw [hinit]
  by_cases hclear : h.openFlag pdev &&& deviceFlagActivated = 0
  · simp only [view, hclear, if_true]
    exact view_callInit_self h (hok h.world)
  · simp only [view, hclear, if_false]

theorem view_openInit_self (h : Hal D σ) :
    (h.openInit info pdev).view pdev = afterInit (h.view pdev) := by
  unfold openInit afterInit
  rw [hinit]
  by_cases hclear : h.openFlag pdev &&& deviceFlagActivated = 0
  · simp only [view, hclear, if_true]
    exact view_callInit_self h (hok h.world)
  · simp only [view, hclear, if_false]

end

theorem view_deviceInit_of_ne (h : Hal D σ) {other : D} (hne : other ≠ pdev) :
    (h.deviceInit info pdev).2.view other = h.view other := by
  unfold deviceInit
  split
  · split
    · exact view_callInit_of_ne h hne
    · rfl
  · rfl

theorem view_openInit_of_ne (h : Hal D σ) {other : D} (hne : other ≠ pdev) :
    (h.openInit info pdev).view other = h.view other := by
  unfold openInit
  split
  · split
    · exact view_callInit_of_ne h hne
    · simp [view, openFlagSet, hne]
  · rfl

omit [DecidableEq D] in
theorem view_callOpen (h : Hal D σ) (oflag : BitVec 16) (other : D) :
    (h.callOpen info pdev oflag).2.view other = h.view other := by
  unfold callOpen
  split <;> rfl

/-- Opening leaves the word with the device initialised, or replaces it by the mode. -/
theorem view_apiDeviceOpen_some (h : Hal D σ) (oflag : BitVec 16) (other : D) :
    (h.apiDeviceOpen info (some pdev) oflag).2.view other =
        (h.openInit info pdev).view other ∨
      other = pdev ∧ (h.apiDeviceOpen info (some pdev) oflag).2.view other =
        (oflag ||| deviceOflagOpen, ((h.openInit info pdev).view other).2) := by
  unfold apiDeviceOpen
  simp only
  split
  · exact .inl rfl
  split
  · rcases eq_or_ne other pdev with rfl | hne
    · right
      have hcalls : (((h.openInit info other).callOpen info other oflag).2.view other).2 =
          ((h.openInit info other).view other).2 := congrArg Prod.snd (view_callOpen _ oflag other)
      exact ⟨rfl, Prod.ext (Function.update_self ..) hcalls⟩
    · left
      have hsame : ((h.openInit info pdev).callOpen info pdev oflag).2.view other =
          (h.openInit info pdev).view other := view_callOpen _ oflag other
      rw [← hsame]
      simp [view, openFlagSet, hne]
  · exact .inl (view_callOpen _ oflag other)

/-- The loop initialises each device on the list if need be. -/
theorem view_foldl_deviceInit (hinit : (info pdev).pfinit = some init)
    (hok : ∀ world, (init world).1 = .ok) (devices : List D) (h : Hal D σ) :
    (devices.foldl (fun h pdev ↦ (h.deviceInit info pdev).2) h).view pdev =
      if pdev ∈ devices then afterInit (h.view pdev) else h.view pdev := by
  induction devices generalizing h with
  | nil => rfl
  | cons device devices ih =>
      rw [List.foldl_cons, ih]
      rcases eq_or_ne pdev device with rfl | hne
      · rw [view_deviceInit_self hinit hok, afterInit_afterInit, ite_self,
          if_pos List.mem_cons_self]
      · rw [view_deviceInit_of_ne h hne]
        simp only [List.mem_cons, hne, false_or]

/-- A call that does not reach the device leaves it alone. -/
theorem view_step_of_not_reaches (hinit : (info pdev).pfinit = some init)
    (hok : ∀ world, (init world).1 = .ok) (h : Hal D σ) (action : HalAction D)
    (hout : ¬ h.Reaches pdev action) : (h.step info action).view pdev = h.view pdev := by
  cases action with
  | initAll => exact (view_foldl_deviceInit hinit hok h.deviceList h).trans (if_neg hout)
  | init pdev' =>
      cases pdev' with
      | none => rfl
      | some other => exact view_deviceInit_of_ne h fun heq ↦ hout (congrArg some heq.symm)
  | «open» pdev' oflag =>
      cases pdev' with
      | none => rfl
      | some other =>
          have hne : pdev ≠ other := fun heq ↦ hout (congrArg some heq.symm)
          rcases view_apiDeviceOpen_some h oflag pdev with hsame | ⟨heq, -⟩
          · exact hsame.trans (view_openInit_of_ne h hne)
          · exact absurd heq hne

/-- A call that reaches the device initialises it if need be; then the word may be replaced by one
with the bit of the open device. -/
theorem view_step_of_reaches (hinit : (info pdev).pfinit = some init)
    (hok : ∀ world, (init world).1 = .ok) (h : Hal D σ) (action : HalAction D)
    (hin : h.Reaches pdev action) :
    ((h.step info action).view pdev).2 = (afterInit (h.view pdev)).2 ∧
      (((h.step info action).view pdev).1 &&& deviceFlagActivated ≠ 0 ∨
        ((h.step info action).view pdev).1 &&& deviceOflagOpen ≠ 0) := by
  have hleft : ∀ v, v = afterInit (h.view pdev) → v.2 = (afterInit (h.view pdev)).2 ∧
      (v.1 &&& deviceFlagActivated ≠ 0 ∨ v.1 &&& deviceOflagOpen ≠ 0) := by
    rintro _ rfl
    exact ⟨rfl, .inl (afterInit_activated _)⟩
  cases action with
  | initAll =>
      exact hleft _ ((view_foldl_deviceInit hinit hok h.deviceList h).trans (if_pos hin))
  | init pdev' =>
      rw [show pdev' = some pdev from hin]
      exact hleft _ (view_deviceInit_self hinit hok h)
  | «open» pdev' oflag =>
      rw [show pdev' = some pdev from hin]
      rcases view_apiDeviceOpen_some h oflag pdev with hsame | ⟨-, hmode⟩
      · exact hleft _ (hsame.trans (view_openInit_self hinit hok h))
      · show (Prod.snd (view _ pdev)) = _ ∧ _
        rw [step, hmode, view_openInit_self hinit hok]
        exact ⟨rfl, .inr (open_or oflag)⟩

/-! ### Runs -/

/-- The init function has been called exactly if the word shows it in one bit or the other. -/
def Shown (pdev : D) (h : Hal D σ) : Prop :=
  h.initCalls pdev = 0 ↔
    h.openFlag pdev &&& deviceFlagActivated = 0 ∧ h.openFlag pdev &&& deviceOflagOpen = 0

theorem Shown.step (hinit : (info pdev).pfinit = some init) (hok : ∀ world, (init world).1 = .ok)
    {h : Hal D σ} (hshown : h.Shown pdev) (action : HalAction D) :
    (h.step info action).Shown pdev := by
  by_cases hin : h.Reaches pdev action
  · obtain ⟨hcalls, hbits⟩ := view_step_of_reaches hinit hok h action hin
    have hcalled : (afterInit (h.view pdev)).2 ≠ 0 := by
      unfold afterInit
      split
      · exact Nat.succ_ne_zero _
      · exact mt hshown.mp fun hclear ↦ absurd hclear.1 ‹_›
    exact iff_of_false (hcalls.trans_ne hcalled) fun hclear ↦
      hbits.elim (absurd hclear.1) (absurd hclear.2)
  · have hsame := view_step_of_not_reaches hinit hok h action hin
    unfold Shown
    rw [show (h.step info action).initCalls pdev = h.initCalls pdev from congrArg Prod.snd hsame,
      show (h.step info action).openFlag pdev = h.openFlag pdev from congrArg Prod.fst hsame]
    exact hshown

/-- A call is one too many exactly if it finds the device open and not marked initialised. -/
theorem initCalls_step_le_one_iff (hinit : (info pdev).pfinit = some init)
    (hok : ∀ world, (init world).1 = .ok) {h : Hal D σ} (hshown : h.Shown pdev)
    (honce : h.initCalls pdev ≤ 1) (action : HalAction D) :
    (h.step info action).initCalls pdev ≤ 1 ↔ h.FindsActivated pdev action := by
  by_cases hin : h.Reaches pdev action
  · have hcalls : (h.step info action).initCalls pdev = (afterInit (h.view pdev)).2 :=
      (view_step_of_reaches hinit hok h action hin).1
    rw [hcalls, afterInit]
    by_cases hclear : h.openFlag pdev &&& deviceFlagActivated = 0
    · simp only [view, hclear, if_true, FindsActivated, hin, ne_eq, not_true_eq_false, imp_false,
        not_not, true_imp_iff]
      calc h.initCalls pdev + 1 ≤ 1 ↔ h.initCalls pdev = 0 := by omega
        _ ↔ h.openFlag pdev &&& deviceOflagOpen = 0 := by simpa only [Shown, hclear, true_and]
          using hshown
    · have hfinds : h.FindsActivated pdev action := fun _ _ ↦ hclear
      simp only [view, hclear, if_false]
      exact iff_of_true honce hfinds
  · have hsame : (h.step info action).initCalls pdev = h.initCalls pdev :=
      congrArg Prod.snd (view_step_of_not_reaches hinit hok h action hin)
    rw [hsame]
    exact iff_of_true honce fun hreach ↦ absurd hreach hin

/-- A driver is initialised at most once as long as no call reaches its device while that is open
in a mode without the bit. -/
theorem initCalls_le_one_iff (hinit : (info pdev).pfinit = some init)
    (hok : ∀ world, (init world).1 = .ok) (deviceList : List D) (world : World σ)
    (actions : List (HalAction D)) :
    AllStates (step info) (fun h ↦ h.initCalls pdev ≤ 1) (construct deviceList world) actions ↔
      AllSteps (step info) (FindsActivated pdev) (construct deviceList world) actions := by
  apply allStates_iff_allSteps (Shown pdev)
  · intro h action hshown _ _
    exact hshown.step hinit hok action
  · intro h action hshown honce
    exact initCalls_step_le_one_iff hinit hok hshown honce action
  · exact iff_of_true rfl ⟨BitVec.zero_and, BitVec.zero_and⟩
  · exact Nat.zero_le 1

/-- A driver whose init and open functions always succeed. -/
def workingInfo (_ : Unit) : DeviceAbstractInfo Unit where
  flag := 0x003
  pfinit := some fun world ↦ (.ok, world)
  pfopen := some fun world _ ↦ (.ok, world)
  pfread := none

def workingHal : Hal Unit Unit :=
  construct [()] { ram := fun _ ↦ 0, writes := [], errorInfo := .ok, rest := () }

/-- Opened with the bit in its mode, the device stays marked. -/
theorem initCalls_le_one_working : AllStates (step workingInfo) (fun h ↦ h.initCalls () ≤ 1)
    workingHal [.initAll, .open (some ()) 0x013, .initAll] :=
  have hinit : (workingInfo ()).pfinit = some fun world ↦ (.ok, world) := rfl
  (initCalls_le_one_iff hinit (fun _ ↦ rfl) _ _ _).mpr (by decide)

/-- Opened for reading and writing, the device is initialised again. -/
theorem initCalls_two_working : () ∈ workingHal.deviceList ∧
    (workingInfo ()).pfinit = some (fun world ↦ (.ok, world)) ∧
    (run (step workingInfo) workingHal
      [.initAll, .open (some ()) 0x003, .initAll]).initCalls () = 2 := by
  refine ⟨List.mem_singleton_self _, rfl, ?_⟩
  decide

end ProjectSensor.Bsp.Hal

import ProjectSensor.App.Application
import ProjectSensor.Library.WriteBehind

/-!
# Saves without the event loop

What the saves of the application come to when the lists, the pool and the receiver are left out:
a request changes the registers of its window and leaves the window waiting, a waiting window is
saved by one call, which copies the block piece by piece and applies the two settings at its end.
A post that gets no slot is a change without a window; `mayRefuse` says where there may be one.
-/

open ProjectSensor.Library ProjectSensor.Library.ByteMemory ProjectSensor.Library.WriteBehind
open ProjectSensor.Bsp

namespace ProjectSensor.App

/-- The first register and the number of registers. -/
abbrev Window := BitVec 16 × BitVec 16

@[ext]
structure Saves where
  para : Mem
  eeprom : Mem
  slave : Byte
  baud : Option (BitVec 32)
  waiting : List Window
  running : Option Saving

/-- A change of the block by a request with this window. -/
structure Changes (window : Window) (para para' : Mem) : Prop where
  outside : ∀ r < splitHoldRIndex1, ¬ InRanges r window.1 window.2 →
    para' (ucLinkAddrAt + r) = para (ucLinkAddrAt + r)
  linkAddr : (para ucLinkAddrAt).toNat ≤ 247 → (para' ucLinkAddrAt).toNat ≤ 247
  commBaud : (para ucCommBaudAt).toNat ≤ 4 → (para' ucCommBaudAt).toNat ≤ 4

/-- What is left of the write is the end of the block. -/
structure OnBlock (access : Access) : Prop where
  subAddr : access.subAddr.toNat = storageInfoHold.storageAddr.toNat + access.acessAddr
  numbBytes : access.acessAddr + access.numbBytes = storageInfoHold.len
  more : access.numbBytes ≠ 0

namespace Saves

variable (s : Saves)

/-- The number of bytes the write under way has copied. -/
def copied : Option ℕ :=
  match s.running with
  | some ⟨_, _, .write access _⟩ => some access.acessAddr
  | _ => none

/-- Some save that will apply the setting in register `r` is waiting, or has not come to it. -/
def Pending (r : ℕ) : Prop :=
  (∃ window ∈ s.waiting, InRanges r window.1 window.2) ∨
    ∃ saving ∈ s.running, InRanges r saving.reg saving.regNo ∧ (r = 0 → saving.stage ≠ .baudSet)

instance (r : ℕ) : Decidable (s.Pending r) :=
  have : Decidable (∃ saving ∈ s.running, InRanges r saving.reg saving.regNo ∧
      (r = 0 → saving.stage ≠ .baudSet)) :=
    match s.running with
    | none => .isFalse fun ⟨_, hmem, _⟩ ↦ Option.not_mem_none _ hmem
    | some saving =>
        decidable_of_iff (InRanges r saving.reg saving.regNo ∧ (r = 0 → saving.stage ≠ .baudSet))
          ⟨fun h ↦ ⟨saving, rfl, h⟩, fun ⟨_, hmem, h⟩ ↦ Option.some.inj hmem ▸ h⟩
  inferInstanceAs (Decidable (_ ∨ _))

/-- The EEPROM holds the block, up to what will still be written. -/
def Stored : Prop :=
  Follows storageInfoHold.len s.para (fun j ↦ s.eeprom (storageInfoHold.storageAddr.toNat + j))
    (s.waiting ≠ []) s.copied

/-- The settings in force are those of the block, up to what will still be applied. -/
structure InForce : Prop where
  linkAddr : (s.para ucLinkAddrAt).toNat ≤ 247
  commBaud : (s.para ucCommBaudAt).toNat ≤ 4
  slave : s.slave = s.para ucLinkAddrAt ∨ s.Pending 0
  baud : s.baud = baudArray[(s.para ucCommBaudAt).toNat]? ∨ s.Pending 1

end Saves

/-- The stage of a save after one more transfer. -/
def stageAfter (access : Access) (retryNumb : ℕ) : SaveStage :=
  if access.next.numbBytes = 0 then .slaveSet else .write access.next retryNumb

inductive SavesStep (mayRefuse : Saves → Window → Prop) : Saves → Saves → Prop where
  | idle (s) : SavesStep mayRefuse s s
  | request {s window para'} (hchange : Changes window s.para para') :
      SavesStep mayRefuse s { s with para := para', waiting := window :: s.waiting }
  | refused {s window para'} (hchange : Changes window s.para para')
      (hrefuse : mayRefuse s window) : SavesStep mayRefuse s { s with para := para' }
  | start {s window before after} (crc : BitVec 16) (hidle : s.running = none)
      (hwaiting : s.waiting = before ++ window :: after) :
      SavesStep mayRefuse s { s with
        para := store16 s.para chksumAt crc
        waiting := before ++ after
        running := some ⟨window.1, window.2, .write wholeAccess retryNumb⟩ }
  | page {s reg regNo access retryNumb}
      (hrunning : s.running = some ⟨reg, regNo, .write access retryNumb⟩)
      (hblock : OnBlock access) :
      SavesStep mayRefuse s { s with
        eeprom := blit s.eeprom access.subAddr.toNat s.para access.acessAddr access.accessBytes
        running := some ⟨reg, regNo, stageAfter access retryNumb⟩ }
  | slaveSet {s reg regNo} (hrunning : s.running = some ⟨reg, regNo, .slaveSet⟩) :
      SavesStep mayRefuse s { s with
        slave := if InRanges 0 reg regNo ∧ (s.para ucLinkAddrAt).toNat ≤ 247 then
          s.para ucLinkAddrAt else s.slave
        running := some ⟨reg, regNo, .baudSet⟩ }
  | baudSet {s reg regNo} (hrunning : s.running = some ⟨reg, regNo, .baudSet⟩) :
      SavesStep mayRefuse s { s with
        baud := if InRanges 1 reg regNo then baudArray[(s.para ucCommBaudAt).toNat]? else s.baud
        running := none }

/-- No change is lost as long as a refused post finds another save waiting. -/
theorem Saves.Stored.step {s s' : Saves} (h : s.Stored)
    (hstep : SavesStep (fun s _ ↦ s.waiting ≠ []) s s') : s'.Stored := by
  cases hstep with
  | idle => exact h
  | request hchange => exact change (List.cons_ne_nil _ _)
  | refused hchange hrefuse => exact change hrefuse
  | start crc hidle hwaiting => exact WriteBehind.start
  | @page reg regNo access retryNumb hrunning hblock =>
      have hcopied : s.copied = some access.acessAddr := by rw [copied, hrunning]
      rw [Stored, hcopied] at h
      have hpiece : ∀ j, access.acessAddr ≤ j → j < access.acessAddr + access.accessBytes →
          blit s.eeprom access.subAddr.toNat s.para access.acessAddr access.accessBytes
            (storageInfoHold.storageAddr.toNat + j) = s.para j := fun j hlow hhigh ↦ by
        rw [hblock.subAddr, blit_of_mem _ _ _ (by omega) (by omega)]
        congr 1
        omega
      have hother : ∀ j, j < access.acessAddr ∨ access.acessAddr + access.accessBytes ≤ j →
          blit s.eeprom access.subAddr.toNat s.para access.acessAddr access.accessBytes
            (storageInfoHold.storageAddr.toNat + j) =
              s.eeprom (storageInfoHold.storageAddr.toNat + j) := fun j hother ↦
        blit_of_outside _ _ _ (by rw [hblock.subAddr]; omega)
      have hcopy := h.copy hpiece hother
      by_cases hdone : access.next.numbBytes = 0
      · have hend : storageInfoHold.len ≤ access.acessAddr + access.accessBytes := by
          have hsum := hblock.numbBytes
          simp only [Access.next] at hdone
          omega
        simpa only [Stored, copied, stageAfter, if_pos hdone] using hcopy.finish hend
      · simp only [Stored, copied, stageAfter, if_neg hdone]
        exact hcopy
  | slaveSet hrunning =>
      have hcopied : s.copied = none := by rw [copied, hrunning]
      rw [Stored, hcopied] at h
      exact h
  | baudSet hrunning =>
      have hcopied : s.copied = none := by rw [copied, hrunning]
      rw [Stored, hcopied] at h
      exact h

/-- A setting in force stays in force through a change of the block with the window `window`, as
long as a save is pending for it when the window has its register. -/
theorem inForce_change {α : Type*} {s : Saves} (s' : Saves) {applied : α} (wanted : Byte → α)
    {window : Window} (r : ℕ) (hr : r < splitHoldRIndex1)
    (h : applied = wanted (s.para (ucLinkAddrAt + r)) ∨ s.Pending r)
    (hchange : Changes window s.para s'.para)
    (hkeep : s.Pending r → s'.Pending r) (hnew : InRanges r window.1 window.2 → s'.Pending r) :
    applied = wanted (s'.para (ucLinkAddrAt + r)) ∨ s'.Pending r := by
  by_cases hin : InRanges r window.1 window.2
  · exact .inr (hnew hin)
  · rw [hchange.outside r hr hin]
    exact h.imp_right hkeep

namespace Saves.Pending

variable {s : Saves} {r : ℕ}

theorem request (h : s.Pending r) (window : Window) (para' : Mem) :
    Pending { s with para := para', waiting := window :: s.waiting } r :=
  h.imp_left fun ⟨other, hmem, hin⟩ ↦ ⟨other, List.mem_cons_of_mem _ hmem, hin⟩

/-- The save that starts was waiting before. -/
theorem start (h : s.Pending r) {window : Window} {before after : List Window} (para' : Mem)
    (hidle : s.running = none) (hwaiting : s.waiting = before ++ window :: after) :
    Pending { s with
      para := para'
      waiting := before ++ after
      running := some ⟨window.1, window.2, .write wholeAccess retryNumb⟩ } r := by
  rcases h with ⟨other, hmem, hin⟩ | ⟨saving, hsaving, _⟩
  · rw [hwaiting] at hmem
    rcases List.mem_append.mp hmem with hbefore | hafter
    · exact .inl ⟨other, List.mem_append_left _ hbefore, hin⟩
    rcases List.mem_cons.mp hafter with rfl | hafter
    · exact .inr ⟨_, rfl, hin, fun _ ↦ by simp⟩
    · exact .inl ⟨other, List.mem_append_right _ hafter, hin⟩
  · rw [hidle] at hsaving
    exact absurd hsaving (Option.not_mem_none _)

/-- What is pending after the running save has gone on to the next stage, or has returned. -/
theorem advance (h : s.Pending r) {reg regNo : BitVec 16} {stage : SaveStage} {s' : Saves}
    (hrunning : s.running = some ⟨reg, regNo, stage⟩) (hwaiting : s'.waiting = s.waiting)
    (hstage : InRanges r reg regNo → (r = 0 → stage ≠ .baudSet) →
      ∃ stage', s'.running = some ⟨reg, regNo, stage'⟩ ∧ (r = 0 → stage' ≠ .baudSet)) :
    s'.Pending r := by
  rcases h with ⟨window, hmem, hin⟩ | ⟨saving, hsaving, hin, hbefore⟩
  · exact .inl ⟨window, hwaiting ▸ hmem, hin⟩
  · rw [hrunning] at hsaving
    obtain rfl := Option.some.inj hsaving
    obtain ⟨stage', hrunning', hafter⟩ := hstage hin hbefore
    exact .inr ⟨_, hrunning', hin, hafter⟩

end Saves.Pending

theorem stageAfter_ne_baudSet (access : Access) (retryNumb : ℕ) :
    stageAfter access retryNumb ≠ .baudSet := by
  unfold stageAfter
  split <;> exact SaveStage.noConfusion

/-- No setting is lost as long as a refused post finds a save pending for each setting its window
has. -/
theorem Saves.InForce.step {s s' : Saves} (h : s.InForce)
    (hstep : SavesStep (fun s window ↦ ∀ r < 2, InRanges r window.1 window.2 → s.Pending r) s s') :
    s'.InForce := by
  obtain ⟨hlink, hcomm, hslave, hbaud⟩ := h
  cases hstep with
  | idle => exact ⟨hlink, hcomm, hslave, hbaud⟩
  | @request window para' hchange =>
      have hnew : ∀ r, InRanges r window.1 window.2 →
          Pending { s with para := para', waiting := window :: s.waiting } r := fun r hin ↦
        .inl ⟨window, List.mem_cons_self, hin⟩
      exact ⟨hchange.linkAddr hlink, hchange.commBaud hcomm,
        inForce_change _ id 0 (by decide) hslave hchange (·.request _ _) (hnew 0),
        inForce_change _ (fun baud ↦ baudArray[baud.toNat]?) 1 (by decide) hbaud hchange
          (·.request _ _) (hnew 1)⟩
  | @refused window para' hchange hrefuse =>
      exact ⟨hchange.linkAddr hlink, hchange.commBaud hcomm,
        inForce_change { s with para := para' } id 0 (by decide) hslave hchange id
          (hrefuse 0 (by decide)),
        inForce_change { s with para := para' } (fun baud ↦ baudArray[baud.toNat]?) 1 (by decide)
          hbaud hchange id (hrefuse 1 (by decide))⟩
  | @start window before after crc hidle hwaiting =>
      have hsame : ∀ r, store16 s.para chksumAt crc (ucLinkAddrAt + r) =
          s.para (ucLinkAddrAt + r) := fun r ↦ by
        rw [store16_apply, if_neg (by simp only [chksumAt, ucLinkAddrAt]; omega),
          if_neg (by simp only [chksumAt, ucLinkAddrAt]; omega)]
      refine ⟨?_, ?_, ?_, ?_⟩
      · exact (congrArg BitVec.toNat (hsame 0)).trans_le hlink
      · exact (congrArg BitVec.toNat (hsame 1)).trans_le hcomm
      · exact (hsame 0).symm ▸ hslave.imp_right fun hpending ↦ hpending.start _ hidle hwaiting
      · exact (hsame 1).symm ▸ hbaud.imp_right fun hpending ↦ hpending.start _ hidle hwaiting
  | @page reg regNo access retryNumb hrunning hblock =>
      have hkeep : ∀ r, s.Pending r → Pending { s with
          eeprom := blit s.eeprom access.subAddr.toNat s.para access.acessAddr access.accessBytes
          running := some ⟨reg, regNo, stageAfter access retryNumb⟩ } r := fun r hpending ↦
        hpending.advance hrunning rfl fun _ _ ↦ ⟨_, rfl, fun _ ↦ stageAfter_ne_baudSet _ _⟩
      exact ⟨hlink, hcomm, hslave.imp_right (hkeep 0), hbaud.imp_right (hkeep 1)⟩
  | @slaveSet reg regNo hrunning =>
      -- the register of the baud is not 0, so that its save is pending at every stage
      refine ⟨hlink, hcomm, ?_, hbaud.imp_right fun hpending ↦
        hpending.advance hrunning rfl fun _ _ ↦ ⟨_, rfl, fun hone ↦ absurd hone one_ne_zero⟩⟩
      by_cases hin : InRanges 0 reg regNo
      · exact .inl (if_pos ⟨hin, hlink⟩)
      · refine hslave.imp (fun heq ↦ ?_) fun hpending ↦
          hpending.advance hrunning rfl fun hin' _ ↦ absurd hin' hin
        rw [if_neg fun hboth ↦ hin hboth.1]
        exact heq
  | @baudSet reg regNo hrunning =>
      refine ⟨hlink, hcomm, hslave.imp_right fun hpending ↦
        hpending.advance hrunning rfl fun _ hstage ↦ absurd rfl (hstage rfl), ?_⟩
      by_cases hin : InRanges 1 reg regNo
      · exact .inl (if_pos hin)
      · refine hbaud.imp (fun heq ↦ ?_) fun hpending ↦
          hpending.advance hrunning rfl fun hin' _ ↦ absurd hin' hin
        rw [if_neg hin]
        exact heq

end ProjectSensor.App

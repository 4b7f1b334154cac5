import Seaweed.Fs.DriveTransfers
import Seaweed.Library.Regions
import Seaweed.Sched.LockedSteps

/-!
# The driver and its controller, step by step (`kernel/drivers/ahci.c`)

`sataRW` is called by any number of tasks, on any core.  What it does between `spinLock` and
`spinRelease` is a list of steps, and between them come those of the controller, and the stores of
the rest of the kernel.

A step is one read of a register, or one of these, which are several accesses each: the search of
`findCMD`, the clearing of the list, the filling of a header, the storing of a command in its table,
and the read and write of `cmd` or `ci` that a `|=` or `&=` makes.

* `SataPlace`, `sataWork` — what a task does next with the lock, `sendCommand` and its loops
  included.
* `performSlot` — what the controller finds in a slot and does, in one step.
* `SataStep` — all of them, in any order.
-/

namespace Seaweed

open Memory Records Regions Sectors SpinLock Transition

/-! ## `sataRW` -/

/-- A call of `sataRW`. -/
structure SataCall where
  task : ℕ
  start : UInt64
  count : UInt32
  buffer : UInt64
  w : Bool
  deriving DecidableEq

/-- The next step; the last ones are behind the loop that waits for the command to be done. -/
inductive SataPlace
  | findCMD
  | clearHeader
  | fillHeader
  | storeCommand
  | waitReady
  | clearST
  | waitStopped
  | setFRE
  | setST
  | issue
  | waitDone
  | clearSTDone
  | waitStoppedDone
  | clearFRE
  | done
  deriving DecidableEq

/-- A task that has the lock, with its local variable `CMDslot`. -/
structure SataInside where
  call : SataCall
  CMDslot : UInt32
  place : SataPlace

def SataInside.goto (l : SataInside) (p : SataPlace) : SataInside := { l with place := p }

/-- The machine: `cr` is bit `HBA_CMD_CR` of register `cmd`, which only the controller writes, and
the other bits of it are in the port.  `entered` are the calls, in the order in which they have got
the lock, and `stored` is what the rest of the kernel has stored. -/
structure SataMachine where
  drive : DrivenGfs
  tfd : UInt32
  cr : Bool
  entered : List SataCall
  stored : List (UInt64 → Option UInt8)

def SataMachine.mem (m : SataMachine) : Mem := m.drive.gfs.mem

def SataMachine.port (m : SataMachine) : HbaPort := m.drive.port

def DrivenGfs.putMem (d : DrivenGfs) (mem : Mem) : DrivenGfs :=
  { d with gfs := { d.gfs with mem := mem } }

def DrivenGfs.putCmd (d : DrivenGfs) (cmd : UInt32) : DrivenGfs :=
  { d with port := { d.port with cmd := cmd } }

def DrivenGfs.putCi (d : DrivenGfs) (ci : UInt32) : DrivenGfs :=
  { d with port := { d.port with ci := ci } }

/-- One step.  The bits of `ci` that are written as 0 stay as they are. -/
def sataWork (l : SataInside) (m : SataMachine) : SataInside × SataMachine :=
  let x := l.call
  let d := m.drive
  let hdr := hbaCMDhdr m.port l.CMDslot
  match l.place with
  | .findCMD =>
      (⟨x, findCMD m.port, .clearHeader⟩, { m with entered := m.entered ++ [x] })
  | .clearHeader =>
      (l.goto .fillHeader, { m with drive := d.putMem (clearedList m.port m.mem) })
  | .fillHeader =>
      (l.goto .storeCommand, { m with drive := d.putMem (fillHeader m.mem hdr x.w) })
  | .storeCommand =>
      (l.goto .waitReady, { m with
        drive := d.putMem (storeCommand m.mem ((ctba m.mem hdr).toUInt64 + HIGH_VMA)
          (sataPrdt x.count x.buffer) (sataFis x.start x.count x.w)) })
  | .waitReady => (if m.tfd &&& (0x80 ||| 0x8) ≠ 0 then l else l.goto .clearST, m)
  | .clearST => (l.goto .waitStopped, { m with drive := d.putCmd (m.port.cmd &&& ~~~HBA_CMD_ST) })
  | .waitStopped => (if m.cr then l else l.goto .setFRE, m)
  | .setFRE => (l.goto .setST, { m with drive := d.putCmd (m.port.cmd ||| HBA_CMD_FRE) })
  | .setST => (l.goto .issue, { m with drive := d.putCmd (m.port.cmd ||| HBA_CMD_ST) })
  | .issue => (l.goto .waitDone,
      { m with drive := d.putCi (m.port.ci ||| (1 : UInt32) <<< l.CMDslot) })
  | .waitDone =>
      (if m.port.ci &&& ((1 : UInt32) <<< l.CMDslot) ≠ 0 then l else l.goto .clearSTDone, m)
  | .clearSTDone =>
      (l.goto .waitStoppedDone, { m with drive := d.putCmd (m.port.cmd &&& ~~~HBA_CMD_ST) })
  | .waitStoppedDone => (if m.cr then l else l.goto .clearFRE, m)
  | .clearFRE => (l.goto .done, { m with drive := d.putCmd (m.port.cmd &&& ~~~HBA_CMD_FRE) })
  | .done => (l, m)

def sataSection : Program ℕ SataCall SataInside SataCall SataMachine where
  caller := SataCall.task
  start := fun x => ⟨x, 0, .findCMD⟩
  work := sataWork
  ends := fun l => match l.place with
    | .done => some l.call
    | _ => none

/-! ## The controller and the rest of the kernel -/

/-- The table of slot `i`, with both halves of its address. -/
def slotTable (port : HbaPort) (mem : Mem) (i : ℕ) : UInt64 :=
  UInt64.ofNat ((ctba mem (hbaCMDhdr port (UInt32.ofNat i))).toNat
    + 2 ^ 32 * (ctbau mem (hbaCMDhdr port (UInt32.ofNat i))).toNat) + HIGH_VMA

/-- The header announces a FIS of 5 words and one region, and the direction of the command. -/
def HeaderGood (mem : Mem) (hdr : UInt64) (w : Bool) : Prop :=
  mem hdr &&& 0x1f = 5 ∧ (mem hdr &&& 0x40 != 0) = w ∧ load mem (hdr + 2) 2 = 1

instance (mem : Mem) (hdr : UInt64) (w : Bool) : Decidable (HeaderGood mem hdr w) :=
  inferInstanceAs (Decidable (_ ∧ _ ∧ _))

/-- What the controller makes of a slot. -/
def performSlot (d : DrivenGfs) (i : ℕ) : Option (Mem × Disk) :=
  let cmdtbl := slotTable d.port d.gfs.mem i
  if HeaderGood d.gfs.mem (hbaCMDhdr d.port (UInt32.ofNat i))
      (decide ((loadFis d.gfs.mem cmdtbl).command = 0x35)) then
    performCommand d.gfs.mem d.gfs.disk cmdtbl
  else none

/-- The machine when the command of slot `i` is done. -/
def DrivenGfs.complete (d : DrivenGfs) (i : ℕ) (r : Mem × Disk) : DrivenGfs where
  gfs := { d.gfs with mem := r.1, disk := r.2 }
  port := { d.port with ci := d.port.ci &&& ~~~((1 : UInt32) <<< UInt32.ofNat i) }

inductive SataEvent
  | start
  | stop
  | taskFile (tfd : UInt32)
  | perform (i : ℕ)
  | stores (stores : UInt64 → Option UInt8)

/-- The controller follows bit `HBA_CMD_ST` and performs, while it runs, the commands that have been
issued; the rest of the kernel stores where it likes, but not in the driver's memory. -/
inductive SataEnv : SataMachine → SataEvent → SataMachine → Prop
  | start {m : SataMachine} (hst : m.port.cmd &&& HBA_CMD_ST ≠ 0) :
      SataEnv m .start { m with cr := true }
  | stop {m : SataMachine} (hst : m.port.cmd &&& HBA_CMD_ST = 0) :
      SataEnv m .stop { m with cr := false }
  | taskFile {m : SataMachine} (tfd : UInt32) : SataEnv m (.taskFile tfd) { m with tfd := tfd }
  | perform {m : SataMachine} {i : ℕ} {r : Mem × Disk} (hi : i < 32) (hcr : m.cr = true)
      (hci : m.port.ci &&& ((1 : UInt32) <<< UInt32.ofNat i) ≠ 0)
      (hr : performSlot m.drive i = some r) :
      SataEnv m (.perform i) { m with drive := m.drive.complete i r }
  | stores {m : SataMachine} {stores : UInt64 → Option UInt8}
      (hstores : Avoids stores (driverBytes m.port)) :
      SataEnv m (.stores stores) { m with
        drive := m.drive.putMem (applyStores stores m.mem)
        stored := m.stored ++ [stores] }

abbrev SataState := SpinLock.State ℕ SataCall SataInside SataCall SataMachine

abbrev SataStep : SataState → SpinLock.Event ℕ SataCall SataEvent → SataState → Prop :=
  SpinLock.Step sataSection DEADLOCK_COUNT SataEnv

/-! ## Computed runs -/

/-- Whether something can happen; other stores are not looked at. -/
def SataEvent.enabled (m : SataMachine) : SataEvent → Bool
  | .start => m.port.cmd &&& HBA_CMD_ST != 0
  | .stop => m.port.cmd &&& HBA_CMD_ST == 0
  | .taskFile _ => true
  | .perform i => decide (i < 32) && m.cr &&
      (m.port.ci &&& ((1 : UInt32) <<< UInt32.ofNat i) != 0) &&
      (performSlot m.drive i).isSome
  | .stores _ => false

def SataEvent.next (m : SataMachine) : SataEvent → SataMachine
  | .start => { m with cr := true }
  | .stop => { m with cr := false }
  | .taskFile tfd => { m with tfd := tfd }
  | .perform i => match performSlot m.drive i with
    | some r => { m with drive := m.drive.complete i r }
    | none => m
  | .stores _ => m

lemma SataEvent.step_next (m : SataMachine) (e : SataEvent) (he : SataEvent.enabled m e = true) :
    SataEnv m e (SataEvent.next m e) := by
  cases e with
  | start => exact .start (by simpa [SataEvent.enabled] using he)
  | stop => exact .stop (by simpa [SataEvent.enabled] using he)
  | taskFile tfd => exact .taskFile tfd
  | perform i =>
      simp only [SataEvent.enabled, Bool.and_eq_true, decide_eq_true_eq, bne_iff_ne] at he
      obtain ⟨⟨⟨hi, hcr⟩, hci⟩, hsome⟩ := he
      obtain ⟨r, hr⟩ := Option.isSome_iff_exists.mp hsome
      simp only [SataEvent.next, hr]
      exact .perform hi hcr hci hr
  | stores _ => exact nomatch he

def SataState.next (f : SataState) (e : SpinLock.Event ℕ SataCall SataEvent) : SataState :=
  SpinLock.State.next sataSection DEADLOCK_COUNT SataEvent.next f e

def SataState.enabled (f : SataState) (e : SpinLock.Event ℕ SataCall SataEvent) : Bool :=
  SpinLock.State.enabled sataSection SataEvent.enabled f e

/-- Computing events that are enabled is a run. -/
lemma sata_replay (f : SataState) (fes : List (SpinLock.Event ℕ SataCall SataEvent))
    (h : Replays (fun f e => f.enabled e = true) SataState.next f fes) :
    Run SataStep f fes (fes.foldl SataState.next f) := by
  have hrun := @Run.replay _ _ SataStep _ id _ _
    (SpinLock.State.step_next sataSection DEADLOCK_COUNT SataEvent.step_next) fes f h
  rwa [List.map_id] at hrun

end Seaweed

import Seaweed.Fs.SataSteps

/-!
# Calls of the driver are indivisible

The tasks go through `sataRW` step by step, with the steps of the controller and the stores of
the rest of the kernel in between.  Still every such run does what a run of indivisible calls does.

* `SataPlace.memory`, `SataPlace.registers`, `SataPlace.rest` — what a task has done of its call,
  and what it has still to do.
* `sataFollows` — the relation that the rule for sections asks for.
* **`sataRW_serialized`** — so the calls are done one after the other, each of them once.
-/

namespace Seaweed

open Memory Records Regions Sectors SpinLock Transition

variable {m m' : SataMachine} {l : SataInside} {x : SataCall} {d : DrivenGfs} {port : HbaPort}
  {mem : Mem} {p : SataPlace} {f f' : Mem → Mem} {stores : UInt64 → Option UInt8} {e : SataEvent}
  {start buffer : UInt64} {count : UInt32} {w : Bool} {t : ℕ} {o : Option (ℕ × SataInside)} {i : ℕ}

/-! ## The driver's memory -/

lemma mem_driverBytes_list {a : UInt64} (h : (a - commandList port).toNat < 1024) :
    a ∈ driverBytes port := Or.inl h

lemma mem_driverBytes_table {a : UInt64} (h : (a - HIGH_VMA).toNat < 144) : a ∈ driverBytes port :=
  Or.inr h

lemma within_clearedList : Within (driverBytes port) (clearedList port) :=
  within_storeBytes (fun a ha => mem_driverBytes_list (by rw [sizeofCMDhdr] at ha; omega))
    (fun _ => List.length_replicate) fun _ _ _ => rfl

/-- The header in slot 0 is filled. -/
lemma within_fillHeader (w : Bool) :
    Within (driverBytes port) (fun mem => fillHeader mem (commandList port) w) := by
  have hfirst : ∀ a, (a - commandList port).toNat < 1 → a ∈ driverBytes port :=
    fun a ha => mem_driverBytes_list (by omega)
  have hdr : commandList port ∈ driverBytes port := hfirst _ (by simp)
  have hflags : Within (driverBytes port) fun mem =>
      storeBytes mem (commandList port) [(mem (commandList port) &&& 0xe0) ||| 5] :=
    within_storeBytes hfirst (fun _ => rfl) fun _ _ h => by rw [h hdr]
  have hw : Within (driverBytes port) fun mem => storeBytes mem (commandList port)
      [(mem (commandList port) &&& 0xbf) ||| if w then 0x40 else 0] :=
    within_storeBytes hfirst (fun _ => rfl) fun _ _ h => by rw [h hdr]
  have hprdtl : Within (driverBytes port) fun mem => store mem (commandList port + 2) 2 1 :=
    within_store fun a ha => mem_driverBytes_list (by
      have hoff : a - commandList port = a - (commandList port + 2) + 2 := by grind
      rw [hoff, UInt64.toNat_add, show (2 : UInt64).toNat = 2 from rfl]
      omega)
  exact hprdtl.comp (hw.comp hflags)

/-- The table at physical address 0 is filled. -/
lemma within_storeCommand (p : Prdt) (f : FisH2D) :
    Within (driverBytes port) (fun mem => storeCommand mem HIGH_VMA p f) := by
  have hplace : ∀ k n, k + n ≤ 144 → ∀ a, (a - (HIGH_VMA + UInt64.ofNat k)).toNat < n →
      a ∈ driverBytes port := fun k n hk a ha => mem_driverBytes_table (by
    have hoff : a - HIGH_VMA = a - (HIGH_VMA + UInt64.ofNat k) + UInt64.ofNat k := by grind
    rw [hoff, UInt64.toNat_add, UInt64.toNat_ofNat']
    omega)
  have hclear : Within (driverBytes port) fun mem =>
      storeBytes mem HIGH_VMA (List.replicate sizeofCommandTable 0) :=
    within_storeBytes (hplace 0 144 (by omega)) (fun _ => List.length_replicate) fun _ _ _ => rfl
  have hdba : Within (driverBytes port) fun mem => store mem (HIGH_VMA + 128) 4 p.dba.toNat :=
    within_store (hplace 128 4 (by omega))
  have hdbau : Within (driverBytes port) fun mem => store mem (HIGH_VMA + 128 + 4) 4 p.dbau.toNat :=
    within_store (hplace 132 4 (by omega))
  have hdbc : Within (driverBytes port) fun mem => store mem (HIGH_VMA + 128 + 12) 4
      (p.dbc.toNat % 2 ^ 22 + if p.i then 2 ^ 31 else 0) :=
    within_store (hplace 140 4 (by omega))
  have hfis : Within (driverBytes port) fun mem => storeBytes mem HIGH_VMA f.bytes :=
    within_storeBytes (hplace 0 20 (by omega)) (fun _ => rfl) fun _ _ _ => rfl
  exact hfis.comp (hdbc.comp (hdbau.comp (hdba.comp hclear)))

/-! ## What is done and what is left -/

/-- The memory, when a call has found it as `mem`. -/
def SataPlace.memory (port : HbaPort) (x : SataCall) (mem : Mem) : SataPlace → Mem
  | .findCMD | .clearHeader => mem
  | .fillHeader => clearedList port mem
  | .storeCommand =>
      Seaweed.fillHeader (clearedList port mem) (hbaCMDhdr port (Seaweed.findCMD port)) x.w
  | _ => (sataRW port mem x.start x.count x.buffer x.w).mem

/-- The registers, up to the loop that waits for the command to be done. -/
def SataPlace.registers (port : HbaPort) : SataPlace → HbaPort
  | .waitStopped | .setFRE => { port with cmd := port.cmd &&& ~~~HBA_CMD_ST }
  | .setST => { port with cmd := (port.cmd &&& ~~~HBA_CMD_ST) ||| HBA_CMD_FRE }
  | .issue => { port with cmd := ((port.cmd &&& ~~~HBA_CMD_ST) ||| HBA_CMD_FRE) ||| HBA_CMD_ST }
  | .waitDone => sendCommand port (Seaweed.findCMD port)
  | _ => port

/-- What is left to do when the command is done. -/
def SataPlace.rest (p : SataPlace) (d : DrivenGfs) : DrivenGfs :=
  match p with
  | .waitDone | .clearSTDone => d.putCmd ((d.port.cmd &&& ~~~HBA_CMD_ST) &&& ~~~HBA_CMD_FRE)
  | .waitStoppedDone | .clearFRE => d.putCmd (d.port.cmd &&& ~~~HBA_CMD_FRE)
  | _ => d

/-- The command is not issued yet, or not done. -/
def SataPlace.pending : SataPlace → Bool
  | .clearHeader | .fillHeader | .storeCommand | .waitReady | .clearST | .waitStopped | .setFRE
  | .setST | .issue | .waitDone => true
  | _ => false

/-- The command may be done. -/
def SataPlace.issued : SataPlace → Bool
  | .waitDone | .clearSTDone | .waitStoppedDone | .clearFRE | .done => true
  | _ => false

/-- The call found slot 0. -/
lemma Idle.hdr_eq (h : Idle port) : hbaCMDhdr port (findCMD port) = commandList port := by
  rw [h.findCMD_eq, hbaCMDhdr_zero]

/-- **A call keeps to the driver's memory** as long as its command is not done. -/
lemma within_memory (h : Idle port) (x : SataCall) (p : SataPlace) :
    Within (driverBytes port) (fun mem => p.memory port x mem) := by
  have hfilled : Within (driverBytes port) fun mem =>
      fillHeader (clearedList port mem) (hbaCMDhdr port (findCMD port)) x.w := by
    rw [h.hdr_eq]
    exact (within_fillHeader x.w).comp within_clearedList
  have hstored : Within (driverBytes port) fun mem =>
      (sataRW port mem x.start x.count x.buffer x.w).mem := by
    have hsame : ∀ mem, (sataRW port mem x.start x.count x.buffer x.w).mem = storeCommand
        (fillHeader (clearedList port mem) (hbaCMDhdr port (findCMD port)) x.w) HIGH_VMA
        (sataPrdt x.count x.buffer) (sataFis x.start x.count x.w) := fun mem => by
      rw [← h.cmdtbl_eq mem x.start x.count x.buffer x.w]
      rfl
    simp only [hsame]
    exact (within_storeCommand _ _).comp hfilled
  cases p with
  | findCMD | clearHeader => exact Within.refl
  | fillHeader => exact within_clearedList
  | storeCommand => exact hfilled
  | _ => exact hstored

/-- What is left to do is done to the registers. -/
lemma rest_putMem (mem : Mem) : p.rest (d.putMem mem) = (p.rest d).putMem mem := by
  cases p <;> rfl

lemma ci_registers (hp : p ≠ .waitDone) : (p.registers port).ci = port.ci := by
  cases p <;> first | rfl | exact absurd rfl hp

lemma clb_registers (p : SataPlace) : (p.registers port).clb = port.clb := by
  cases p <;> rfl

lemma port_rest (p : SataPlace) : (p.rest d).port.clb = d.port.clb ∧
    (p.rest d).port.ci = d.port.ci := by
  cases p <;> exact ⟨rfl, rfl⟩

lemma gfs_rest (p : SataPlace) : (p.rest d).gfs = d.gfs := by
  cases p <;> rfl

/-! ## Indivisible calls -/

/-- The machine, and the calls and the stores that have been done, in their order. -/
structure SataLog where
  drive : DrivenGfs
  done : List SataCall
  stored : List (UInt64 → Option UInt8)

inductive SataAction
  | call (x : SataCall)
  | stores (stores : UInt64 → Option UInt8)

/-- A whole call, or stores of the rest of the kernel. -/
inductive CallStep : SataLog → SataAction → SataLog → Prop
  | call {a : SataLog} {x : SataCall} {d : DrivenGfs}
      (hcall : driverRW a.drive x.start x.count x.buffer x.w = some d) :
      CallStep a (.call x) { a with drive := d, done := a.done ++ [x] }
  | stores {a : SataLog} {stores : UInt64 → Option UInt8}
      (hstores : Avoids stores (driverBytes a.drive.port)) :
      CallStep a (.stores stores) { a with
        drive := a.drive.putMem (applyStores stores a.drive.gfs.mem)
        stored := a.stored ++ [stores] }

/-! ## The relation -/

variable {a a' : SataLog}

/-- How far a call is; it has taken place when its command is done. -/
inductive Calling (l : SataInside) (m : SataMachine) (a : SataLog) : Prop
  | entering (hplace : l.place = .findCMD) (hdrive : m.drive = a.drive)
      (hentered : m.entered = a.done)
  | pending (hplace : l.place.pending = true) (hslot : l.CMDslot = findCMD a.drive.port)
      {mem : Mem} (hmem : mem = l.place.memory a.drive.port l.call a.drive.gfs.mem)
      (hdrive : m.drive = ⟨{ a.drive.gfs with mem := mem }, l.place.registers a.drive.port⟩)
      (hentered : m.entered = a.done ++ [l.call])
  | done (hplace : l.place.issued = true) (hslot : l.CMDslot = 0)
      (hdrive : a.drive = l.place.rest m.drive) (hentered : m.entered = a.done)
      (hcall : l.call ∈ a.done)

/-- Where bit `HBA_CMD_ST` has been cleared. -/
def SataPlace.cleared : SataPlace → Bool
  | .waitStopped | .setFRE | .setST | .waitStoppedDone | .clearFRE => true
  | _ => false

/-- Where the controller has been seen to have stopped. -/
def SataPlace.stopped : SataPlace → Bool
  | .setFRE | .setST | .clearFRE => true
  | _ => false

/-- The controller is only started, and the reception of FISes only switched, while it has
stopped. -/
structure Disciplined (p : SataPlace) (m : SataMachine) : Prop where
  cleared : p.cleared = true → m.port.cmd &&& HBA_CMD_ST = 0
  stopped : p.stopped = true → m.cr = false

/-- Where the task that has the lock is, if there is one. -/
def AtCall (o : Option (ℕ × SataInside)) (m : SataMachine) (a : SataLog) : Prop :=
  match o with
  | none => m.drive = a.drive ∧ m.entered = a.done
  | some (t, l) => l.call.task = t ∧ Calling l m a ∧ Disciplined l.place m

/-- The machine follows the indivisible calls; the list of headers is behind the command table. -/
structure FollowsDriver (o : Option (ℕ × SataInside)) (m : SataMachine) (a : SataLog) : Prop where
  idle : Idle a.drive.port
  list : sizeofCommandTable ≤ a.drive.port.clb.toNat
  stored : m.stored = a.stored
  place : AtCall o m a

/-! ## Registers -/

lemma or_and_self_right (c s : UInt32) : (c ||| s) &&& s = s := by
  refine UInt32.toBitVec_inj.mp (BitVec.eq_of_getLsbD_eq fun i _ => ?_)
  simp only [UInt32.toBitVec_and, UInt32.toBitVec_or, BitVec.getLsbD_and, BitVec.getLsbD_or]
  cases s.toBitVec.getLsbD i <;> simp

lemma or_and_of_apart {c s t : UInt32} (h : t &&& s = 0) : (c ||| t) &&& s = c &&& s := by
  refine UInt32.toBitVec_inj.mp (BitVec.eq_of_getLsbD_eq fun i _ => ?_)
  have hi : (t &&& s).toBitVec.getLsbD i = (0 : UInt32).toBitVec.getLsbD i := by rw [h]
  simp only [UInt32.toBitVec_and, UInt32.toBitVec_or, BitVec.getLsbD_and, BitVec.getLsbD_or,
    UInt32.toBitVec_zero, BitVec.getLsbD_zero] at hi ⊢
  rw [Bool.and_or_distrib_right, hi, Bool.or_false]

lemma cleared_ST (c : UInt32) : (c &&& ~~~HBA_CMD_ST) &&& HBA_CMD_ST = 0 := by
  rw [UInt32.and_assoc, show ~~~HBA_CMD_ST &&& HBA_CMD_ST = 0 from rfl, UInt32.and_zero]

/-- Only the slot of the command is busy. -/
lemma slot_eq_zero : ∀ i, i < 32 →
    ((1 : UInt32) <<< (0 : UInt32)) &&& ((1 : UInt32) <<< UInt32.ofNat i) ≠ 0 → i = 0 := by
  decide

/-! ## A task's access -/

/-- What is done of a call grows, up to the loop that waits for the command. -/
lemma Calling.work_pending (hidle : Idle a.drive.port) (hplace : l.place.pending = true)
    (hslot : l.CMDslot = findCMD a.drive.port)
    (hmem : mem = l.place.memory a.drive.port l.call a.drive.gfs.mem)
    (hdrive : m.drive = ⟨{ a.drive.gfs with mem := mem }, l.place.registers a.drive.port⟩)
    (hentered : m.entered = a.done ++ [l.call]) : Calling (sataWork l m).1 (sataWork l m).2 a := by
  obtain ⟨x, slot, p⟩ := l
  obtain ⟨drive, tfd, cr, entered, stored⟩ := m
  obtain ⟨⟨gfs, port⟩, done, stored'⟩ := a
  simp only at hplace hslot hmem hdrive hentered
  subst hslot hdrive hentered
  have hfree : port.ci = 0 := hidle.ci
  cases p with
  | clearHeader => exact .pending rfl rfl (by rw [hmem]; rfl) rfl rfl
  | fillHeader => exact .pending rfl rfl (by rw [hmem]; rfl) rfl rfl
  | storeCommand =>
      refine .pending rfl rfl ?_ rfl rfl
      rw [hmem]
      rfl
  | clearST | setFRE | setST => exact .pending rfl rfl hmem rfl rfl
  | waitReady =>
      show Calling (ite _ _ _) _ _
      split_ifs
      · exact .pending rfl rfl hmem rfl rfl
      · exact .pending rfl rfl hmem rfl rfl
  | waitStopped =>
      cases cr with
      | true => exact .pending rfl rfl hmem rfl rfl
      | false => exact .pending rfl rfl hmem rfl rfl
  | issue =>
      refine .pending rfl rfl hmem ?_ rfl
      show DrivenGfs.mk _ { SataPlace.registers port .issue with
        ci := port.ci ||| (1 : UInt32) <<< findCMD port } = _
      rw [hfree, UInt32.zero_or]
      rfl
  | waitDone =>
      -- the command is not done, so the loop goes on
      have hbusy :
          (sendCommand port (findCMD port)).ci &&& ((1 : UInt32) <<< findCMD port) ≠ 0 := by
        show (1 : UInt32) <<< findCMD port &&& (1 : UInt32) <<< findCMD port ≠ 0
        rw [hidle.findCMD_eq]
        decide
      show Calling (ite _ _ _) _ _
      split_ifs with hdone
      · exact .pending rfl rfl hmem rfl rfl
      · exact absurd hbusy hdone
  | _ => exact Bool.noConfusion hplace

/-- What is left of it becomes less. -/
lemma Calling.work_done (hplace : l.place.issued = true) (hslot : l.CMDslot = 0)
    (hdrive : a.drive = l.place.rest m.drive) (hentered : m.entered = a.done)
    (hcall : l.call ∈ a.done) : Calling (sataWork l m).1 (sataWork l m).2 a := by
  obtain ⟨x, slot, p⟩ := l
  obtain ⟨drive, tfd, cr, entered, stored⟩ := m
  simp only at hplace hslot hdrive hentered hcall
  cases p with
  | waitDone =>
      show Calling (ite _ _ _) _ _
      split_ifs
      · exact .done rfl hslot hdrive hentered hcall
      · exact .done rfl hslot hdrive hentered hcall
  | waitStoppedDone =>
      cases cr with
      | true => exact .done rfl hslot hdrive hentered hcall
      | false => exact .done rfl hslot hdrive hentered hcall
  | clearSTDone | clearFRE | done => exact .done rfl hslot hdrive hentered hcall
  | _ => exact Bool.noConfusion hplace

lemma Calling.work (hidle : Idle a.drive.port) (h : Calling l m a) :
    Calling (sataWork l m).1 (sataWork l m).2 a := by
  cases h with
  | entering hplace hdrive hentered =>
      obtain ⟨x, slot, p⟩ := l
      obtain ⟨drive, tfd, cr, entered, stored⟩ := m
      simp only at hplace hdrive hentered
      subst hplace hdrive hentered
      exact .pending rfl rfl rfl rfl rfl
  | pending hplace hslot hmem hdrive hentered =>
      exact .work_pending hidle hplace hslot hmem hdrive hentered
  | done hplace hslot hdrive hentered hcall => exact .work_done hplace hslot hdrive hentered hcall

lemma call_sataWork (l : SataInside) (m : SataMachine) : (sataWork l m).1.call = l.call := by
  obtain ⟨x, slot, p⟩ := l
  cases p with
  | waitReady | waitStopped | waitDone | waitStoppedDone =>
      simp only [sataWork]
      split_ifs <;> rfl
  | _ => rfl

lemma stored_sataWork (l : SataInside) (m : SataMachine) : (sataWork l m).2.stored = m.stored := by
  obtain ⟨x, slot, p⟩ := l
  obtain ⟨drive, tfd, cr, entered, stored⟩ := m
  cases p <;> rfl

/-- The loops that wait for the controller keep to the discipline. -/
lemma Disciplined.work (h : Disciplined l.place m) :
    Disciplined (sataWork l m).1.place (sataWork l m).2 := by
  obtain ⟨x, slot, p⟩ := l
  obtain ⟨hcleared, hstopped⟩ := h
  simp only at hcleared hstopped
  cases p with
  | clearST | clearSTDone => exact ⟨fun _ => cleared_ST _, nofun⟩
  | waitReady =>
      simp only [sataWork]
      split_ifs
      · exact ⟨nofun, nofun⟩
      · exact ⟨nofun, nofun⟩
  | waitStopped | waitStoppedDone =>
      simp only [sataWork]
      split_ifs with hcr
      · exact ⟨hcleared, nofun⟩
      · exact ⟨hcleared, fun _ => Bool.not_eq_true _ ▸ hcr⟩
  | setFRE =>
      refine ⟨fun _ => ?_, hstopped⟩
      exact (or_and_of_apart rfl).trans (hcleared rfl)
  | waitDone =>
      simp only [sataWork]
      split_ifs
      · exact ⟨nofun, nofun⟩
      · exact ⟨nofun, nofun⟩
  | done => exact ⟨nofun, nofun⟩
  | _ => exact ⟨nofun, nofun⟩

/-! ## The controller -/

/-- The list of headers is behind the command table. -/
lemma apart_list (hlist : sizeofCommandTable ≤ port.clb.toNat) :
    Apart HIGH_VMA sizeofCommandTable (commandList port) (32 * sizeofCMDhdr) := by
  intro i hi
  have hclb := port.clb.toNat_lt
  have hoff : port.clb.toUInt64 + HIGH_VMA + UInt64.ofNat i - HIGH_VMA
      = port.clb.toUInt64 + UInt64.ofNat i := by grind
  rw [sizeofCMDhdr] at hi
  rw [commandList, hoff, UInt64.toNat_add, UInt32.toNat_toUInt64, UInt64.toNat_ofNat']
  omega

/-- The header of slot 0 as the controller finds it. -/
lemma ctba_sataRW (h : Idle port) (hlist : sizeofCommandTable ≤ port.clb.toNat) (mem : Mem)
    (x : SataCall) :
    let c := sataRW port mem x.start x.count x.buffer x.w
    ctba c.mem (commandList port) = 0 ∧ ctbau c.mem (commandList port) = 0 := by
  intro c
  have hcmdtbl : c.cmdtbl = HIGH_VMA := h.cmdtbl_eq mem x.start x.count x.buffer x.w
  have hapart : Apart c.cmdtbl sizeofCommandTable (commandList port) (32 * sizeofCMDhdr) := by
    rw [hcmdtbl]
    exact apart_list hlist
  have hbyte : ∀ k, 8 ≤ k → k < 16 → c.mem (commandList port + UInt64.ofNat k)
      = clearedList port mem (commandList port + UInt64.ofNat k) := fun k hge hlt =>
    command_list (findCMD_lt port) hapart (by omega)
      (Or.inr (by rw [h.findCMD_eq, UInt32.toNat_zero]; omega))
  obtain ⟨hlow, hhigh⟩ := ctba_congr hbyte
  rw [hlow, hhigh]
  exact ctba_cleared

lemma slotTable_sataRW (h : Idle port) (hlist : sizeofCommandTable ≤ port.clb.toNat) (mem : Mem)
    (x : SataCall) :
    let c := sataRW port mem x.start x.count x.buffer x.w
    slotTable c.port c.mem 0 = c.cmdtbl := by
  intro c
  have hcmdtbl : c.cmdtbl = HIGH_VMA := h.cmdtbl_eq mem x.start x.count x.buffer x.w
  have hhdr : hbaCMDhdr c.port (UInt32.ofNat 0) = commandList port := hbaCMDhdr_zero port
  obtain ⟨hlow, hhigh⟩ := ctba_sataRW h hlist mem x
  rw [hcmdtbl, slotTable, hhdr, hlow, hhigh]
  rfl

lemma performCommand_of_performSlot {g : Gfs} {r : Mem × Disk}
    (h : performSlot ⟨{ g with mem := mem }, port⟩ i = some r) :
    performCommand mem g.disk (slotTable port mem i) = some r := by
  rw [performSlot] at h
  split_ifs at h
  exact h

/-- What the controller makes of the slot is what the indivisible call does. -/
lemma driverRW_of_performSlot {r : Mem × Disk} (h : Idle d.port)
    (hlist : sizeofCommandTable ≤ d.port.clb.toNat)
    (hr : performSlot ⟨{ d.gfs with
        mem := (sataRW d.port d.gfs.mem x.start x.count x.buffer x.w).mem },
      sendCommand d.port (findCMD d.port)⟩ 0 = some r) :
    driverRW d x.start x.count x.buffer x.w = some ⟨{ d.gfs with mem := r.1, disk := r.2 },
      commandDone (sendCommand d.port (findCMD d.port)) (findCMD d.port)⟩ := by
  have htable : slotTable (sendCommand d.port (findCMD d.port))
      (sataRW d.port d.gfs.mem x.start x.count x.buffer x.w).mem 0
        = (sataRW d.port d.gfs.mem x.start x.count x.buffer x.w).cmdtbl :=
    slotTable_sataRW h hlist d.gfs.mem x
  have hperform := performCommand_of_performSlot hr
  rw [htable] at hperform
  rw [driverRW, hperform]
  rfl

/-- No command is under way, but for one that is waited for. -/
lemma FollowsDriver.waitDone_of_ci (h : FollowsDriver o m a) {b : UInt32}
    (hci : m.port.ci &&& b ≠ 0) :
    ∃ t l, o = some (t, l) ∧ l.place = .waitDone ∧
      ∃ mem, mem = SataPlace.waitDone.memory a.drive.port l.call a.drive.gfs.mem ∧
        m.drive =
          ⟨{ a.drive.gfs with mem := mem }, sendCommand a.drive.port (findCMD a.drive.port)⟩ ∧
        m.entered = a.done ++ [l.call] ∧ l.call.task = t ∧ l.CMDslot = findCMD a.drive.port := by
  have hbusy : m.port.ci ≠ 0 := fun hzero => hci (by rw [hzero, UInt32.zero_and])
  have hidle := h.idle.ci
  have hplace := h.place
  cases o with
  | none =>
      have hsame : m.drive = a.drive := hplace.1
      exact absurd ((congrArg (fun d => d.port.ci) hsame).trans hidle) hbusy
  | some y =>
      obtain ⟨t, l⟩ := y
      obtain ⟨htask, hcalling, _⟩ := hplace
      cases hcalling with
      | entering _ hdrive _ =>
          exact absurd ((congrArg (fun d => d.port.ci) hdrive).trans hidle) hbusy
      | done _ _ hdrive _ _ =>
          have hrest : a.drive.port.ci = m.drive.port.ci := by
            rw [hdrive]
            exact (port_rest l.place).2
          exact absurd (hrest.symm.trans hidle) hbusy
      | pending _ hslot hmem hdrive hentered =>
          by_cases hwait : l.place = .waitDone
          · rw [hwait] at hmem hdrive
            exact ⟨t, l, rfl, hwait, _, hmem, hdrive, hentered, htask, hslot⟩
          · have hci' : m.drive.port.ci = a.drive.port.ci := by
              rw [hdrive]
              exact ci_registers hwait
            exact absurd (hci'.trans hidle) hbusy

/-- **The command is done**, and with it the call. -/
lemma FollowsDriver.perform {r : Mem × Disk} (h : FollowsDriver o m a) (hi : i < 32)
    (hci : m.port.ci &&& ((1 : UInt32) <<< UInt32.ofNat i) ≠ 0)
    (hr : performSlot m.drive i = some r) :
    ∃ es a', Run CallStep a es a' ∧
      FollowsDriver o { m with drive := m.drive.complete i r } a' ∧ ∀ y ∈ a.done, y ∈ a'.done := by
  obtain ⟨t, l, rfl, hplace, mem, hmem, hdrive, hentered, htask, hslot⟩ := h.waitDone_of_ci hci
  have hzero := h.idle.findCMD_eq
  obtain rfl : i = 0 := by
    refine slot_eq_zero i hi ?_
    rw [SataMachine.port, hdrive, sendCommand, hzero] at hci
    exact hci
  rw [hdrive, hmem] at hr
  have hcall := driverRW_of_performSlot h.idle h.list hr
  refine ⟨[.call l.call], _, .single (.call hcall),
    ⟨h.idle.commandDone, h.list, h.stored, htask, ?_, ?_⟩, fun y hy => List.mem_append_left _ hy⟩
  · refine .done (by rw [hplace]; rfl) (hslot.trans hzero) ?_ hentered
      (List.mem_append_right _ (List.mem_singleton_self _))
    rw [hplace, hdrive, hzero]
    rfl
  · rw [hplace]
    exact ⟨fun h => Bool.noConfusion h, fun h => Bool.noConfusion h⟩

/-- **The rest of the kernel stores something.** -/
lemma FollowsDriver.storesElsewhere (h : FollowsDriver o m a)
    (hstores : Avoids stores (driverBytes m.port)) :
    ∃ es a', Run CallStep a es a' ∧
      FollowsDriver o { m with
        drive := m.drive.putMem (applyStores stores m.mem)
        stored := m.stored ++ [stores] } a' ∧
      ∀ y ∈ a.done, y ∈ a'.done := by
  have hclb : m.drive.port.clb = a.drive.port.clb := by
    have hplace := h.place
    cases o with
    | none => rw [show m.drive = a.drive from hplace.1]
    | some y =>
        obtain ⟨t, l⟩ := y
        obtain ⟨_, hcalling, _⟩ := hplace
        cases hcalling with
        | entering _ hdrive _ => rw [hdrive]
        | done _ _ hdrive _ _ =>
            rw [hdrive]
            exact (port_rest l.place).1.symm
        | pending _ _ _ hdrive _ =>
            rw [hdrive]
            exact clb_registers l.place
  have hsame : driverBytes m.port = driverBytes a.drive.port := driverBytes_congr hclb
  rw [hsame] at hstores
  refine ⟨[.stores stores], _, .single (.stores hstores),
    ⟨h.idle, h.list, by rw [h.stored], ?_⟩, fun y hy => hy⟩
  have hplace := h.place
  cases o with
  | none =>
      obtain ⟨hdrive, hentered⟩ := hplace
      refine ⟨?_, hentered⟩
      rw [SataMachine.mem, hdrive]
  | some y =>
      obtain ⟨t, l⟩ := y
      obtain ⟨htask, hcalling, hdisciplined⟩ := hplace
      refine ⟨htask, ?_, hdisciplined.cleared, hdisciplined.stopped⟩
      cases hcalling with
      | entering hplace hdrive hentered =>
          refine .entering hplace ?_ hentered
          rw [SataMachine.mem, hdrive]
      | done hplace hslot hdrive hentered hcall =>
          have hgfs : a.drive.gfs = m.drive.gfs := hdrive ▸ gfs_rest l.place
          refine .done hplace hslot ?_ hentered hcall
          rw [rest_putMem, SataMachine.mem, ← hgfs, ← hdrive]
      | @pending hplace hslot mem hmem hdrive hentered =>
          have hcommute := (within_memory h.idle l.call l.place).applyStores hstores a.drive.gfs.mem
          refine .pending hplace hslot (show applyStores stores mem = _ from ?_) ?_ hentered
          · rw [hmem]
            exact hcommute.symm
          · rw [SataMachine.mem, hdrive]
            rfl

/-- **A step of the controller, or of the rest of the kernel.** -/
lemma FollowsDriver.env (h : FollowsDriver o m a) (hstep : SataEnv m e m') :
    ∃ es a', Run CallStep a es a' ∧ FollowsDriver o m' a' ∧ ∀ y ∈ a.done, y ∈ a'.done := by
  -- a step that leaves the drive as it is keeps the call where it is
  have hkeeps : ∀ tfd cr, (∀ t l, o = some (t, l) → l.place.stopped = true → cr = false) →
      FollowsDriver o { m with tfd := tfd, cr := cr } a := by
    intro tfd cr hcr
    refine ⟨h.idle, h.list, h.stored, ?_⟩
    have hplace := h.place
    cases o with
    | none => exact hplace
    | some y =>
        obtain ⟨t, l⟩ := y
        obtain ⟨htask, hcalling, hdisciplined⟩ := hplace
        refine ⟨htask, ?_, hdisciplined.cleared, hcr t l rfl⟩
        cases hcalling with
        | entering hplace hdrive hentered => exact .entering hplace hdrive hentered
        | pending hplace hslot hmem hdrive hentered =>
            exact .pending hplace hslot hmem hdrive hentered
        | done hplace hslot hdrive hentered hcall => exact .done hplace hslot hdrive hentered hcall
  have hdiscipline : ∀ t l, o = some (t, l) → Disciplined l.place m := by
    rintro t l rfl
    exact h.place.2.2
  cases hstep with
  | start hst =>
      refine ⟨[], a, .nil, hkeeps m.tfd true fun t l ho hstopped => ?_, fun y hy => hy⟩
      have hcleared : l.place.cleared = true := by
        cases hp : l.place <;> rw [hp] at hstopped <;> first | rfl | exact Bool.noConfusion hstopped
      exact absurd ((hdiscipline t l ho).cleared hcleared) hst
  | stop hst => exact ⟨[], a, .nil, hkeeps m.tfd false fun _ _ _ _ => rfl, fun y hy => hy⟩
  | taskFile tfd =>
      exact ⟨[], a, .nil, hkeeps tfd m.cr fun t l ho => (hdiscipline t l ho).stopped,
        fun y hy => hy⟩
  | perform hi hcr hci hr => exact h.perform hi hci hr
  | stores hstores => exact h.storesElsewhere hstores

/-! ## What the interleavings do -/

/-- The rule for sections applies. -/
def sataFollows : Serialization sataSection SataEnv CallStep where
  Rel := FollowsDriver
  Left t x a := x ∈ a.done ∧ x.task = t
  start x m a h := ⟨h.idle, h.list, h.stored, rfl, .entering rfl h.place.1 h.place.2, nofun, nofun⟩
  work t l m a h hends :=
    ⟨[], a, .nil, ⟨h.idle, h.list, (stored_sataWork l m).trans h.stored, by
      obtain ⟨htask, hcalling, hdisciplined⟩ := h.place
      exact ⟨(congrArg SataCall.task (call_sataWork l m)).trans htask, hcalling.work h.idle,
        hdisciplined.work⟩⟩,
      fun _ _ _ hleft => hleft⟩
  release t l x m a h hends := by
    obtain ⟨htask, hcalling, _⟩ := h.place
    obtain ⟨hplace, rfl⟩ : l.place = .done ∧ l.call = x := by
      simp only [sataSection] at hends
      split at hends
      · exact ⟨‹_›, Option.some.inj hends⟩
      · exact nomatch hends
    cases hcalling with
    | entering hplace' => exact nomatch hplace.symm.trans hplace'
    | pending hplace' => exact nomatch (congrArg SataPlace.pending hplace).symm.trans hplace'
    | done _ _ hdrive hentered hcall =>
        rw [hplace] at hdrive
        exact ⟨⟨h.idle, h.list, h.stored, hdrive.symm, hentered⟩, hcall, htask⟩
  env o e m m' a h hstep := by
    obtain ⟨es, a', hrun, h', hdone⟩ := h.env hstep
    exact ⟨es, a', hrun, h', fun t x hleft => ⟨hdone x hleft.1, hleft.2⟩⟩

/-- Nobody has called the driver, the port is idle, and the list of headers is behind the table. -/
structure SataState.Fresh (f : SataState) : Prop where
  outside : f.Initial
  idle : Idle f.shared.port
  list : sizeofCommandTable ≤ f.shared.port.clb.toNat
  entered : f.shared.entered = []
  stored : f.shared.stored = []

def SataState.log (f : SataState) : SataLog := ⟨f.shared.drive, [], []⟩

/-- What indivisible calls that lead to `a` say about a state: the calls have been done in the order
in which they have got the lock, but for the one that has it. -/
structure CallsSerialized (f : SataState) (a : SataLog) : Prop where
  exclusive : ∀ t t' l l', f.phase t = .inside l → f.phase t' = .inside l' → t = t'
  held_iff : f.held = true ↔ ∃ t l, f.phase t = .inside l
  drive : f.held = false → f.shared.drive = a.drive
  stored : f.shared.stored = a.stored
  done : f.held = false → f.shared.entered = a.done
  underWay : f.shared.entered = a.done ∨
    ∃ t l, f.phase t = .inside l ∧ f.shared.entered = a.done ++ [l.call]
  returned : ∀ t x, f.phase t = .after x → x ∈ a.done ∧ x.task = t
  slot : ∀ t l, f.phase t = .inside l → l.place ≠ .findCMD → l.CMDslot = 0
  disciplined : ∀ t l, f.phase t = .inside l → Disciplined l.place f.shared

variable {f₀ f : SataState} {fes : List (SpinLock.Event ℕ SataCall SataEvent)}
  {as : List SataAction}

lemma sata_stands (h0 : f₀.Fresh) (hrun : Run SataStep f₀ fes f) :
    ∃ as a, Run CallStep f₀.log as a ∧ sataFollows.Stands f a := by
  refine sataFollows.run h0.outside ?_ hrun
  exact ⟨h0.idle, h0.list, h0.stored, rfl, h0.entered⟩

/-- **Calls of the driver are indivisible.**  Whatever the order of the steps of the tasks, of the
controller and of the rest of the kernel, calls that are done one after the other lead to the
same. -/
theorem sataRW_serialized (h0 : f₀.Fresh) (hrun : Run SataStep f₀ fes f) :
    ∃ as a, Run CallStep f₀.log as a ∧ CallsSerialized f a := by
  obtain ⟨as, a, hrun', hstands⟩ := sata_stands h0 hrun
  obtain ⟨o, hholder, hfollows⟩ := hstands.holder
  have hinside : ∀ t l, f.phase t = .inside l → Calling l f.shared a ∧
      Disciplined l.place f.shared := by
    intro t l hphase
    obtain rfl := hholder.eq_of_inside hphase
    exact ⟨hfollows.place.2.1, hfollows.place.2.2⟩
  have hout : f.held = false → f.shared.drive = a.drive ∧ f.shared.entered = a.done := by
    intro hheld
    obtain rfl := hholder.eq_none hheld
    exact hfollows.place
  refine ⟨as, a, hrun', fun t t' l l' => hholder.exclusive, hholder.held_iff, fun h => (hout h).1,
    hfollows.stored, fun h => (hout h).2, ?_, hstands.left, ?_, fun t l h => (hinside t l h).2⟩
  · cases hheld : f.held with
    | false => exact Or.inl (hout hheld).2
    | true =>
        obtain ⟨t, l, hphase⟩ := hholder.held_iff.mp hheld
        cases (hinside t l hphase).1 with
        | entering _ _ hentered => exact Or.inl hentered
        | done _ _ _ hentered _ => exact Or.inl hentered
        | pending _ _ _ _ hentered => exact Or.inr ⟨t, l, hphase, hentered⟩
  · intro t l hphase hne
    cases (hinside t l hphase).1 with
    | entering hplace => exact absurd hplace hne
    | done _ hslot => exact hslot
    | pending _ hslot => exact hslot.trans hfollows.idle.findCMD_eq

/-! ## A sector is copied by two tasks -/

/-- An idle port; byte `k` of each sector is `k`. -/
def plainSata : SataState where
  held := false
  phase := fun _ => .outside
  shared :=
    { drive := ⟨⟨fun _ => 0, fun _ k => UInt8.ofNat k, 0, 0⟩, idlePort⟩
      tfd := 0
      cr := false
      entered := []
      stored := [] }

lemma plainSata_fresh : plainSata.Fresh :=
  ⟨⟨rfl, fun _ => rfl⟩, ⟨rfl, rfl⟩, by decide, rfl, rfl⟩

/-- Task 0 reads sector 5, and task 1 writes it to sector 6. -/
def readCall : SataCall := ⟨0, 5, 1, HIGH_VMA + 0x200000, false⟩

def writeCall : SataCall := ⟨1, 6, 1, HIGH_VMA + 0x200000, true⟩

/-- Up to the loop that waits for the command. -/
def issueEvents (t : ℕ) : List (SpinLock.Event ℕ SataCall SataEvent) :=
  [.take t] ++ List.replicate 10 (.work t)

/-- The controller starts, performs the command, and stops when it is told to. -/
def doneEvents (t : ℕ) : List (SpinLock.Event ℕ SataCall SataEvent) :=
  [.env .start, .work t, .env (.perform 0), .work t, .work t, .env .stop, .work t, .work t,
    .release t]

def copyEvents : List (SpinLock.Event ℕ SataCall SataEvent) :=
  [.call readCall, .call writeCall] ++ issueEvents 0 ++ [.fail 1] ++ doneEvents 0 ++
    issueEvents 1 ++ doneEvents 1

def copied : SataState := copyEvents.foldl SataState.next plainSata

lemma run_copied : Run SataStep plainSata copyEvents copied := sata_replay _ _ (by decide +kernel)

theorem sataRW_serialized_copied :
    ∃ as a, Run CallStep plainSata.log as a ∧ CallsSerialized copied a :=
  sataRW_serialized plainSata_fresh run_copied

example : copied.shared.drive.gfs.disk 6 0x1ff = 0xff := by decide +kernel

end Seaweed

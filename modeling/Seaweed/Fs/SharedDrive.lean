import Seaweed.Fs.SataInterleavings

/-!
# A drive that is shared

The tasks that call the driver read and write single sectors.  For the file system that is what the
loops of `DriveTransfers` do, one turn after the other, in the order in which the calls have got the
lock; and nobody waits for ever.

* `Gfs.act` — a call or other stores, as the file system sees them.
* **`sharedDrive_refines`** — the drive and the memory after any run.
* **`sharedDrive_completes`** — a call that has got the lock can always be brought to its end by the
  steps of its task and of the controller.
-/

namespace Seaweed

open Memory Records Regions Sectors SpinLock Transition

variable {a a' : SataLog} {x : SataCall} {g : Gfs} {as : List SataAction} {port : HbaPort}
  {mem : Mem} {f₀ f : SataState} {fes : List (SpinLock.Event ℕ SataCall SataEvent)}
  {m m' : SataMachine}
  {l : SataInside} {t : ℕ}

/-! ## Sectors -/

/-- One sector with a number of 32 bits, and a buffer that is not the driver's. -/
structure SataCall.OneSector (x : SataCall) (port : HbaPort) : Prop where
  count : x.count = 1
  start : x.start.toNat < 2 ^ 32
  buffer : OwnBuffer port x.buffer 1

def Gfs.act (g : Gfs) : SataAction → Gfs
  | .call x => g.sataRW x.start x.buffer x.w
  | .stores stores => { g with mem := applyStores stores g.mem }

def SataAction.asCall : SataAction → Option SataCall
  | .call x => some x
  | .stores _ => none

def SataAction.asStores : SataAction → Option (UInt64 → Option UInt8)
  | .call _ => none
  | .stores f => some f

lemma calls_logged (hrun : Run CallStep a as a') :
    a'.done = a.done ++ as.filterMap SataAction.asCall ∧
      a'.stored = a.stored ++ as.filterMap SataAction.asStores := by
  induction hrun with
  | nil => simp
  | snoc _ hstep ih =>
      obtain ⟨hdone, hstored⟩ := ih
      cases hstep with
      | call hcall => simp [SataAction.asCall, SataAction.asStores, hdone, hstored]
      | stores hstores => simp [SataAction.asCall, SataAction.asStores, hdone, hstored]

/-- Other stores leave the driver's memory alone, so they are what they are. -/
lemma Refines.stores {d : DrivenGfs} (h : Refines d g) (stores : UInt64 → Option UInt8) :
    Refines (d.putMem (applyStores stores d.gfs.mem)) (g.act (.stores stores)) :=
  ⟨h.idle, eqOn_applyStores h.mem stores, h.disk, h.sectorCount, h.superBlock⟩

/-- **Indivisible calls are turns of the loops.** -/
lemma calls_refine (hrun : Run CallStep a as a') (h : Refines a.drive g)
    (hcalls : ∀ x ∈ a'.done, x.OneSector a.drive.port) :
    Refines a'.drive (as.foldl Gfs.act g) ∧ a'.drive.port.clb = a.drive.port.clb := by
  induction hrun with
  | nil => exact ⟨h, rfl⟩
  | @snoc _ _ b _ hrun hstep ih =>
      rw [List.foldl_append]
      cases hstep with
      | @call x d hcall =>
          obtain ⟨hrefines, hclb⟩ := ih fun y hy => hcalls y (List.mem_append_left _ hy)
          have hx := hcalls x (List.mem_append_right _ (List.mem_singleton_self x))
          have hbuffer : OwnBuffer b.drive.port x.buffer 1 :=
            ⟨hx.buffer.direct,
              fun k hk => by rw [driverBytes_congr hclb]; exact hx.buffer.apart k hk⟩
          obtain ⟨d', hcall', hclb', hrefines'⟩ :=
            driverRW_refines hrefines hx.start hbuffer (w := x.w)
          rw [hx.count, hcall'] at hcall
          obtain rfl := Option.some.inj hcall
          exact ⟨hrefines', hclb'.trans hclb⟩
      | stores hstores =>
          obtain ⟨hrefines, hclb⟩ := ih hcalls
          exact ⟨hrefines.stores _, hclb⟩

/-- What the rest of the kernel stores in a run. -/
def storesOf : SpinLock.Event ℕ SataCall SataEvent → Option (UInt64 → Option UInt8)
  | .env (.stores stores) => some stores
  | _ => none

lemma stored_eq (hrun : Run SataStep f₀ fes f) :
    f.shared.stored = f₀.shared.stored ++ fes.filterMap storesOf := by
  induction hrun with
  | nil => simp
  | snoc _ hstep ih =>
      rw [List.filterMap_append, ← List.append_assoc, ← ih]
      cases hstep with
      | work hphase hends => exact (stored_sataWork _ _).trans (List.append_nil _).symm
      | env hstep =>
          cases hstep with
          | stores hstores => rfl
          | _ => exact (List.append_nil _).symm
      | _ => exact (List.append_nil _).symm

/-- **A shared drive.**  When nobody has the lock, the disk and the memory are what the transfers of
the calls make of them, one after the other in the order in which they have got the lock, with the
stores of the rest of the kernel somewhere in between, in their order. -/
theorem sharedDrive_refines (h0 : f₀.Fresh) (hrun : Run SataStep f₀ fes f) (hheld : f.held = false)
    (hcalls : ∀ x ∈ f.shared.entered, x.OneSector f₀.shared.port) :
    ∃ as : List SataAction, as.filterMap SataAction.asCall = f.shared.entered ∧
      as.filterMap SataAction.asStores = fes.filterMap storesOf ∧
      Refines f.shared.drive (as.foldl Gfs.act f₀.shared.drive.gfs) := by
  obtain ⟨as, a, hcallRun, hserialized⟩ := sataRW_serialized h0 hrun
  obtain ⟨hdone, hstored⟩ := calls_logged hcallRun
  have hentered := hserialized.done hheld
  have hstores := stored_eq hrun
  rw [h0.stored] at hstores
  have hstart : Refines f₀.log.drive f₀.shared.drive.gfs :=
    ⟨h0.idle, Set.eqOn_refl _ _, fun _ _ _ => rfl, rfl, rfl⟩
  have hrefines := (calls_refine hcallRun hstart fun x hx => hcalls x (hentered ▸ hx)).1
  refine ⟨as, ?_, ?_, ?_⟩
  · rw [hentered, hdone]
    rfl
  · have hsame := hserialized.stored
    rw [hstores, hstored] at hsame
    exact hsame.symm
  · rwa [hserialized.drive hheld]

/-! ## The command that the controller finds -/

/-- The call asks for sectors that a command can ask for. -/
structure SataCall.Encodable (x : SataCall) : Prop where
  start : x.start.toNat < 2 ^ 32
  pos : 1 ≤ x.count.toNat
  count : x.count.toNat ≤ 8192
  buffer : DirectMapped x.buffer

lemma header_filled (mem : Mem) (port : HbaPort) (w : Bool) :
    HeaderGood (fillHeader (clearedList port mem) (commandList port) w) (commandList port) w := by
  have hzero : clearedList port mem (commandList port) = 0 := by
    have hbyte : clearedList port mem (commandList port + UInt64.ofNat 0) = _ :=
      clearedList_byte (by omega)
    simpa using hbyte
  have hput : ∀ (m : Mem) (b : UInt8),
      storeBytes m (commandList port) [b] (commandList port) = b := by
    intro m b
    simp [storeBytes]
  have hfar : 2 ≤ (commandList port - (commandList port + 2)).toNat := by
    have hback : commandList port - (commandList port + 2) = 0 - 2 := by grind
    rw [hback]
    decide
  have hfirst : fillHeader (clearedList port mem) (commandList port) w (commandList port)
      = (((0 &&& 0xe0) ||| 5) &&& 0xbf) ||| if w then 0x40 else 0 := by
    rw [fillHeader]
    refine (store_outside hfar).trans ?_
    rw [hput, hput, hzero]
  refine ⟨?_, ?_, ?_⟩
  · rw [hfirst]
    cases w <;> rfl
  · rw [hfirst]
    cases w <;> rfl
  · rw [fillHeader]
    exact load_store (by omega)

lemma header_congr {m m' : Mem} {hdr : UInt64} {w : Bool} (h : HeaderGood m hdr w)
    (hsame : ∀ k, k < 4 → m' (hdr + UInt64.ofNat k) = m (hdr + UInt64.ofNat k)) :
    HeaderGood m' hdr w := by
  have hfirst : m' hdr = m hdr := by simpa using hsame 0 (by omega)
  have hprdtl : load m' (hdr + 2) 2 = load m (hdr + 2) 2 := load_congr fun i hi => by
    have hoff : hdr + 2 + UInt64.ofNat i = hdr + UInt64.ofNat (2 + i) := by
      rw [UInt64.ofNat_add, UInt64.add_assoc]
      rfl
    rw [hoff]
    exact hsame _ (by omega)
  exact ⟨hfirst ▸ h.1, hfirst ▸ h.2.1, hprdtl.trans h.2.2⟩

lemma header_sataRW (h : Idle port) (hlist : sizeofCommandTable ≤ port.clb.toNat) (mem : Mem)
    (x : SataCall) :
    HeaderGood (sataRW port mem x.start x.count x.buffer x.w).mem (commandList port) x.w := by
  refine header_congr (header_filled mem port x.w) fun k hk => ?_
  have hcmdtbl := h.cmdtbl_eq mem x.start x.count x.buffer x.w
  rw [sataRW_eq] at hcmdtbl ⊢
  simp only [commandFrom] at hcmdtbl ⊢
  rw [hcmdtbl, storeCommand_outside (apart_list hlist k (by rw [sizeofCMDhdr]; omega)),
    h.findCMD_eq, hbaCMDhdr_zero]

/-- The controller takes a slot whose header is good. -/
lemma performSlot_of_header {g : Gfs} {i : ℕ} {w : Bool}
    (hheader : HeaderGood mem (hbaCMDhdr port (UInt32.ofNat i)) w)
    (hcommand : (loadFis mem (slotTable port mem i)).command = if w then 0x35 else 0x25) :
    performSlot ⟨{ g with mem := mem }, port⟩ i =
      performCommand mem g.disk (slotTable port mem i) := by
  have hw : decide ((loadFis mem (slotTable port mem i)).command = 0x35) = w := by
    rw [hcommand]
    cases w <;> rfl
  rw [← hw] at hheader
  exact if_pos hheader

/-- **The controller can perform the command.** -/
lemma performSlot_sataRW (h : Idle port) (hlist : sizeofCommandTable ≤ port.clb.toNat) (g : Gfs)
    (hx : x.Encodable) :
    ∃ r, performSlot ⟨{ g with mem := (sataRW port g.mem x.start x.count x.buffer x.w).mem },
      sendCommand port (findCMD port)⟩ 0 = some r := by
  have htable : slotTable (sendCommand port (findCMD port))
      (sataRW port g.mem x.start x.count x.buffer x.w).mem 0
        = (sataRW port g.mem x.start x.count x.buffer x.w).cmdtbl :=
          slotTable_sataRW h hlist g.mem x
  have hheader := header_sataRW h hlist g.mem x
  have hhdr : hbaCMDhdr (sendCommand port (findCMD port)) (UInt32.ofNat 0) = commandList port :=
    hbaCMDhdr_zero port
  have hencodes : Encodes
      (sataRW port g.mem x.start x.count x.buffer x.w) x.start x.count x.buffer x.w :=
    (encodes_sataRW port g.mem x.start x.w hx.pos (hx.count.trans (by omega)) hx.buffer).mpr
      ⟨hx.start, hx.count⟩
  rw [← hhdr] at hheader
  rw [performSlot_of_header hheader (by rw [htable]; exact hencodes.command), htable,
    hencodes.performCommand_eq g.disk]
  exact ⟨_, rfl⟩

/-! ## A call that has got the lock -/

/-- The access that comes next when nothing has to be waited for. -/
def SataPlace.next : SataPlace → SataPlace
  | .findCMD => .clearHeader
  | .clearHeader => .fillHeader
  | .fillHeader => .storeCommand
  | .storeCommand => .waitReady
  | .waitReady => .clearST
  | .clearST => .waitStopped
  | .waitStopped => .setFRE
  | .setFRE => .setST
  | .setST => .issue
  | .issue => .waitDone
  | .waitDone => .clearSTDone
  | .clearSTDone => .waitStoppedDone
  | .waitStoppedDone => .clearFRE
  | .clearFRE => .done
  | .done => .done

/-- The number of accesses that are left. -/
def SataPlace.left : SataPlace → ℕ
  | .findCMD => 14
  | .clearHeader => 13
  | .fillHeader => 12
  | .storeCommand => 11
  | .waitReady => 10
  | .clearST => 9
  | .waitStopped => 8
  | .setFRE => 7
  | .setST => 6
  | .issue => 5
  | .waitDone => 4
  | .clearSTDone => 3
  | .waitStoppedDone => 2
  | .clearFRE => 1
  | .done => 0

lemma left_next {p : SataPlace} (hp : p ≠ .done) : p.next.left < p.left := by
  cases p <;> first | decide | exact absurd rfl hp

def SataEvent.byController : SataEvent → Bool
  | .stores _ => false
  | _ => true

/-- **No loop is for ever**: the controller can do what the task waits for. -/
lemma exists_next (h : FollowsDriver (some (t, l)) m a) (hx : l.call.Encodable) :
    ∃ es m', Run SataEnv m es m' ∧ (∀ e ∈ es, SataEvent.byController e = true) ∧
      (sataWork l m').1.place = l.place.next := by
  obtain ⟨_, _, hdisciplined⟩ := h.place
  obtain ⟨x, slot, p⟩ := l
  cases p with
  | waitReady =>
      refine ⟨[.taskFile 0], _, .single (.taskFile 0), by simp [SataEvent.byController], ?_⟩
      show (ite _ _ _ : SataInside).place = _
      rw [if_neg (by simp)]
      rfl
  | waitStopped | waitStoppedDone =>
      exact ⟨[.stop], _, .single (.stop (hdisciplined.cleared rfl)),
        by simp [SataEvent.byController], rfl⟩
  | waitDone =>
      by_cases hbusy : m.port.ci &&& ((1 : UInt32) <<< slot) ≠ 0
      · obtain ⟨_, _, ⟨⟩, _, mem, hmem, hdrive, _, _, hslot⟩ := h.waitDone_of_ci hbusy
        have hzero := h.idle.findCMD_eq
        have hslot' : slot = 0 := hslot.trans hzero
        obtain ⟨r, hr⟩ := performSlot_sataRW h.idle h.list a.drive.gfs hx
        have hst : m.port.cmd &&& HBA_CMD_ST ≠ 0 := by
          rw [SataMachine.port, hdrive]
          show (_ ||| HBA_CMD_ST) &&& HBA_CMD_ST ≠ 0
          rw [or_and_self_right]
          decide
        have hci : m.port.ci &&& ((1 : UInt32) <<< UInt32.ofNat 0) ≠ 0 := by
          rwa [hslot'] at hbusy
        have hperform : performSlot m.drive 0 = some r := by
          rw [hdrive, hmem]
          exact hr
        have hstart : SataEnv m .start { m with cr := true } := .start hst
        have hdone : SataEnv { m with cr := true } (.perform 0)
            { m with cr := true, drive := m.drive.complete 0 r } :=
              .perform (by omega) rfl hci hperform
        refine ⟨[.start] ++ [.perform 0], _, (Run.single hstart).append (.single hdone),
          by simp [SataEvent.byController], ?_⟩
        show (ite _ _ _ : SataInside).place = _
        rw [if_neg]
        · rfl
        · show ¬(m.drive.port.ci &&& ~~~((1 : UInt32) <<< UInt32.ofNat 0)) &&&
              (1 : UInt32) <<< slot ≠ 0
          rw [hslot', UInt32.and_assoc]
          simp
      · refine ⟨[], m, .nil, by simp, ?_⟩
        show (ite _ _ _ : SataInside).place = _
        rw [if_neg hbusy]
        rfl
  | _ => exact ⟨[], m, .nil, by simp, rfl⟩

/-- A step of the task, or of the controller. -/
def OwnStep (t : ℕ) : SpinLock.Event ℕ SataCall SataEvent → Prop
  | .work t' | .release t' => t' = t
  | .env e => e.byController = true
  | _ => False

lemma run_env {es : List SataEvent} (hrun : Run SataEnv f.shared es m') :
    Run SataStep f (es.map .env) { f with shared := m' } := by
  induction hrun with
  | nil => exact .nil
  | snoc _ hstep ih =>
      rw [List.map_append]
      exact ih.snoc (.env hstep)

/-- **Every call that has got the lock can be brought to its end** by the task and the controller
alone, wherever the others are. -/
theorem sharedDrive_completes (h0 : f₀.Fresh) (hrun : Run SataStep f₀ fes f)
    (hphase : f.phase t = .inside l) (hx : l.call.Encodable) :
    ∃ es f', Run SataStep f es f' ∧ (∀ e ∈ es, OwnStep t e) ∧ f'.held = false ∧
      f'.phase t = .after l.call := by
  induction hleft : l.place.left using Nat.strong_induction_on generalizing f fes l with
  | _ n ih =>
      by_cases hdone : l.place = .done
      · have hends : sataSection.ends l = some l.call := by simp only [sataSection, hdone]
        exact ⟨[.release t], _, .single (.release hphase hends), by simp [OwnStep], rfl, phase_go⟩
      · obtain ⟨as, a, _, hstands⟩ := sata_stands h0 hrun
        obtain ⟨o, hholder, hfollows⟩ := hstands.holder
        obtain rfl := hholder.eq_of_inside hphase
        obtain ⟨es, m', henv, hcontroller, hnext⟩ := exists_next hfollows hx
        have hends : sataSection.ends l = none := by
          cases hplace : l.place <;> first | exact absurd hplace hdone |
            simp only [sataSection, hplace]
        have hwork : Run SataStep f (es.map .env ++ [.work t]) _ :=
          (run_env henv).snoc (.work hphase hends)
        have hcall : (sataWork l m').1.call = l.call := call_sataWork l m'
        obtain ⟨es', f', hrun', hown, hfree, hafter⟩ := ih (sataWork l m').1.place.left
          (by rw [hnext, ← hleft]; exact left_next hdone) (hrun.append hwork) phase_go
          (by rw [← hcall] at hx; exact hx) rfl
        refine ⟨_, f', hwork.append hrun', fun e he => ?_, hfree, hcall ▸ hafter⟩
        rcases List.mem_append.mp he with he | he
        · rcases List.mem_append.mp he with he | he
          · obtain ⟨c, hc, rfl⟩ := List.mem_map.mp he
            exact hcontroller c hc
          · rw [List.mem_singleton.mp he]
            rfl
        · exact hown e he

/-! ## Two tasks -/

lemma ownBuffer_plain : OwnBuffer idlePort (HIGH_VMA + 0x200000) 1 := by
  refine ⟨fun i hi => ?_, fun k hk => ?_⟩
  · rw [Nat.lt_one_iff.mp hi]
    decide
  · have hlist : HIGH_VMA + 0x200000 + UInt64.ofNat k - commandList idlePort
        = UInt64.ofNat (0x1f8000 + k) := by
      rw [UInt64.ofNat_add, show commandList idlePort = HIGH_VMA + 0x8000 from rfl]
      grind
    have htable : HIGH_VMA + 0x200000 + UInt64.ofNat k - HIGH_VMA =
        UInt64.ofNat (0x200000 + k) := by
      rw [UInt64.ofNat_add]
      grind
    rintro (hin | hin)
    · rw [hlist, Words.toNat_ofNat_of_lt (by omega), sizeofCMDhdr] at hin
      omega
    · rw [htable, Words.toNat_ofNat_of_lt (by omega), sizeofCommandTable] at hin
      omega

theorem sharedDrive_refines_copied :
    ∃ as : List SataAction, as.filterMap SataAction.asCall = [readCall, writeCall] ∧
      as.filterMap SataAction.asStores = [] ∧
      Refines copied.shared.drive (as.foldl Gfs.act plainSata.shared.drive.gfs) := by
  have hentered : copied.shared.entered = [readCall, writeCall] := by decide +kernel
  obtain ⟨as, hcalls, hstores, hrefines⟩ :=
    sharedDrive_refines plainSata_fresh run_copied (by decide +kernel) (by
      rw [hentered, List.forall_mem_cons, List.forall_mem_singleton]
      exact ⟨⟨rfl, by decide, ownBuffer_plain⟩, ⟨rfl, by decide, ownBuffer_plain⟩⟩)
  exact ⟨as, hcalls.trans hentered, hstores, hrefines⟩

/-- Task 0 has just got the lock. -/
theorem sharedDrive_completes_read :
    ∃ es f', Run SataStep ((plainSata.next (.call readCall)).next (.take 0)) es f' ∧
      (∀ e ∈ es, OwnStep 0 e) ∧ f'.held = false ∧ f'.phase 0 = .after readCall := by
  have hrun : Run SataStep plainSata [.call readCall, .take 0] _ := sata_replay _ _ (by decide)
  exact sharedDrive_completes plainSata_fresh hrun (l := ⟨readCall, 0, .findCMD⟩) rfl
    ⟨by decide, by decide, by decide, by decide⟩

end Seaweed

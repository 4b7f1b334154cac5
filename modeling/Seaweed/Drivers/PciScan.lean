import Seaweed.Drivers.Pci
import Seaweed.Library.TreeWalk

/-!
# Does the enumeration end? (`kernel/drivers/pci.c`)

`pciScanBus` calls itself for the bus behind a bridge, with a number that it has read from the
bridge.  Nothing says that this bus has not been scanned before.

* `pciScanBusLogged` — the code, with a log of the buses; without the log it is the code.
* `ScansOnce` — the scan of bus 0 ends, and has scanned no bus twice.
* `scan_walk`, `walk_scan` — the scan is a walk along the bridges.
* **`pciScanBus_once_iff`** — it ends, and scans no bus twice, exactly if the bridges form a tree.
-/

namespace Seaweed

open RootedTree

/-! ## The log -/

section code

variable (cfg : ConfigSpace) (krealloc : (ℕ → PciDevice) → ℕ → ℕ → PciDevice)

/-- The body of the loop over the devices of a bus, whatever is done with the functions that
answer. -/
def eachFunction {σ : Type} (check : UInt8 → UInt8 → UInt8 → σ → Option σ) (bus device : UInt8)
    (s : σ) :
    Option σ :=
  if answers cfg bus device 0 then do
    let s ← check bus device 0 s
    if isMultifunction cfg bus device then
      (List.range' 1 7).foldlM (fun s function =>
        if answers cfg bus device (UInt8.ofNat function)
          then check bus device (UInt8.ofNat function) s
        else some s) s
    else some s
  else some s

/-- `checkDevice`, with the log. -/
def checkDeviceLogged (scan : UInt8 → PciArray × List UInt8 → Option (PciArray × List UInt8))
    (bus device function : UInt8) (s : PciArray × List UInt8) : Option (PciArray × List UInt8) :=
  if isBridge cfg bus device function then scan (secondaryBus cfg bus device function) s
  else some (addPCIDevice krealloc (newPCIDevice cfg bus device function) s.1, s.2)

/-- `pciScanBus`, which notes the bus that it has been called for. -/
def pciScanBusLogged : (fuel : ℕ) → UInt8 → PciArray × List UInt8 → Option (PciArray × List UInt8)
  | 0, _, _ => none
  | fuel + 1, bus, s =>
      (List.range 32).foldlM (fun s device =>
        eachFunction cfg (checkDeviceLogged cfg krealloc (pciScanBusLogged fuel)) bus
          (UInt8.ofNat device) s)
        (s.1, s.2 ++ [bus])

end code

/-- The scan comes back, and its log has no bus twice. -/
def ScansOnce (cfg : ConfigSpace) (krealloc : (ℕ → PciDevice) → ℕ → ℕ → PciDevice) (s : PciArray) :
    Prop :=
  ∃ fuel s' visits, pciScanBus cfg krealloc fuel 0 s = some s' ∧
    pciScanBusLogged cfg krealloc fuel 0 (s, []) = some (s', visits) ∧ visits.Nodup

variable {cfg : ConfigSpace} {krealloc : (ℕ → PciDevice) → ℕ → ℕ → PciDevice} {bus device : UInt8}
  {fuel : ℕ} {v : List UInt8}

lemma scanDevice_eq (scan : UInt8 → PciArray → Option PciArray) :
    scanDevice cfg krealloc scan bus device =
      eachFunction cfg (checkDevice cfg krealloc scan) bus device := rfl

/-! ## The functions of a bus, one after the other -/

section fold

variable {σ : Type} (check : UInt8 → UInt8 → UInt8 → σ → Option σ)

lemma eachFunction_eq (bus device : UInt8) (s : σ) : eachFunction cfg check bus device s =
    (deviceFunctions cfg bus device).foldlM (fun s f => check f.bus f.device f.function s) s := by
  rw [eachFunction]
  by_cases hanswers : answers cfg bus device 0 = true
  · rw [if_pos hanswers, deviceFunctions_eq hanswers, List.foldlM_cons]
    refine bind_congr fun s => ?_
    rw [List.foldlM_map]
    cases isMultifunction cfg bus device with
    | true => simp [List.foldlM_filter]
    | false => simp
  · rw [if_neg hanswers, deviceFunctions_nil (Bool.eq_false_of_not_eq_true hanswers)]
    rfl

lemma foldlM_flatMap {α β : Type} (body : σ → β → Option σ) (g : α → List β) (l : List α) (s : σ) :
    (l.flatMap g).foldlM body s = l.foldlM (fun s x => (g x).foldlM body s) s := by
  induction l generalizing s with
  | nil => rfl
  | cons x l ih =>
      rw [List.flatMap_cons, List.foldlM_append, List.foldlM_cons]
      exact bind_congr fun s => ih s

/-- **The loops over the devices and the functions of a bus** are one over those that are
present. -/
lemma eachDevice_eq (bus : UInt8) (s : σ) :
    (List.range 32).foldlM (fun s device => eachFunction cfg check bus (UInt8.ofNat device) s) s =
      (busFunctions cfg bus).foldlM (fun s f => check f.bus f.device f.function s) s := by
  simp only [eachFunction_eq]
  exact (foldlM_flatMap _ _ _ _).symm

end fold

lemma pciScanBus_succ (s : PciArray) : pciScanBus cfg krealloc (fuel + 1) bus s =
    (busFunctions cfg bus).foldlM (fun s f =>
      checkDevice cfg krealloc (pciScanBus cfg krealloc fuel) f.bus f.device f.function s) s := by
  simp only [pciScanBus, scanDevice_eq]
  exact eachDevice_eq _ bus s

lemma pciScanBusLogged_succ (s : PciArray × List UInt8) :
    pciScanBusLogged cfg krealloc (fuel + 1) bus s =
    (busFunctions cfg bus).foldlM (fun s f =>
      checkDeviceLogged cfg krealloc
        (pciScanBusLogged cfg krealloc fuel) f.bus f.device f.function s)
      (s.1, s.2 ++ [bus]) :=
  eachDevice_eq _ bus _

/-- A loop whose turns do the same without the log does the same without the log. -/
lemma foldlM_fst {α σ τ : Type} {body : σ × τ → α → Option (σ × τ)} {body' : σ → α → Option σ}
    (h : ∀ s x, (body s x).map Prod.fst = body' s.1 x) (l : List α) (s : σ × τ) :
    (l.foldlM body s).map Prod.fst = l.foldlM body' s.1 := by
  induction l generalizing s with
  | nil => rfl
  | cons x l ih =>
      rw [List.foldlM_cons, List.foldlM_cons, ← h]
      cases body s x with
      | none => rfl
      | some s' => exact ih s'

/-- **Without the log it is the code.** -/
theorem pciScanBusLogged_fst (cfg : ConfigSpace) (krealloc : (ℕ → PciDevice) → ℕ → ℕ → PciDevice)
    (fuel : ℕ) (bus : UInt8) (s : PciArray × List UInt8) :
    (pciScanBusLogged cfg krealloc fuel bus s).map Prod.fst =
      pciScanBus cfg krealloc fuel bus s.1 := by
  induction fuel generalizing bus s with
  | zero => rfl
  | succ fuel ih =>
      rw [pciScanBusLogged_succ, pciScanBus_succ]
      refine foldlM_fst (fun s f => ?_) _ _
      rw [checkDeviceLogged, checkDevice]
      split_ifs
      · exact ih _ _
      · rfl

/-! ## The walk -/

/-- The bridges on a bus. -/
def bridges (cfg : ConfigSpace) (bus : UInt8) : List PciFunction :=
  (busFunctions cfg bus).filter fun f => isBridge cfg f.bus f.device f.function

lemma lists_bridges (cfg : ConfigSpace) :
    Lists (Leads cfg) (bridges cfg) (PciFunction.behind cfg) := by
  constructor
  case leads_iff =>
    intro a f b
    rw [bridges, List.mem_filter, mem_busFunctions, Leads, and_assoc, and_assoc]
    rfl
  case nodup => exact fun a => (nodup_busFunctions cfg a).filter _

/-- What one turn of the loop adds to the log. -/
def Adds (cfg : ConfigSpace) (f : PciFunction) (v : List UInt8) : Prop :=
  if isBridge cfg f.bus f.device f.function then
    Walk (bridges cfg) (PciFunction.behind cfg) (f.behind cfg) v
  else v = []

/-- The turns of a bus add up to a walk. -/
lemma walk_of_adds {sub : PciFunction → List UInt8}
    (h : ∀ f ∈ busFunctions cfg bus, Adds cfg f (sub f)) :
    Walk (bridges cfg) (PciFunction.behind cfg) bus
      (bus :: (busFunctions cfg bus).flatMap sub) := by
  have hsame : (busFunctions cfg bus).flatMap sub = (bridges cfg bus).flatMap sub := by
    rw [bridges, flatMap_filter]
    refine List.flatMap_congr fun f hf => ?_
    have hadds := h f hf
    rw [Adds] at hadds
    split_ifs at hadds ⊢ with hbridge
    · rfl
    · exact hadds
  rw [hsame]
  refine .visit bus sub fun f hf => ?_
  obtain ⟨hf, hbridge⟩ := List.mem_filter.mp hf
  have hadds := h f hf
  rwa [Adds, if_pos hbridge] at hadds

lemma foldlM_adds {σ α : Type} [DecidableEq α] {p : α → List UInt8 → Prop}
    {body : σ × List UInt8 → α → Option (σ × List UInt8)} {l : List α} (hl : l.Nodup)
    (hbody : ∀ s x s', body s x = some s' → ∃ v, p x v ∧ s'.2 = s.2 ++ v) {s s' : σ × List UInt8}
    (h : l.foldlM body s = some s') :
    ∃ sub : α → List UInt8, (∀ x ∈ l, p x (sub x)) ∧ s'.2 = s.2 ++ l.flatMap sub := by
  induction l generalizing s with
  | nil =>
      obtain rfl : s = s' := Option.some_inj.mp h
      exact ⟨fun _ => [], fun x hx => absurd hx List.not_mem_nil, (List.append_nil _).symm⟩
  | cons x l ih =>
      obtain ⟨hx, hl⟩ := List.nodup_cons.mp hl
      rw [List.foldlM_cons, Option.bind_eq_bind, Option.bind_eq_some_iff] at h
      obtain ⟨s₁, hfirst, hrest⟩ := h
      obtain ⟨v, hv, hlog⟩ := hbody s x s₁ hfirst
      obtain ⟨sub, hsub, hlogs⟩ := ih hl hrest
      have hsame : l.flatMap (Function.update sub x v) = l.flatMap sub :=
        List.flatMap_congr fun y hy => Function.update_of_ne (ne_of_mem_of_not_mem hy hx) _ _
      refine ⟨Function.update sub x v, fun y hy => ?_, ?_⟩
      · rcases List.mem_cons.mp hy with rfl | hy
        · rwa [Function.update_self]
        · rw [Function.update_of_ne (ne_of_mem_of_not_mem hy hx)]
          exact hsub y hy
      · rw [List.flatMap_cons, Function.update_self, hsame, hlogs, hlog, List.append_assoc]

/-- **A scan that ends is a walk.** -/
lemma scan_walk {s s' : PciArray × List UInt8}
    (h : pciScanBusLogged cfg krealloc fuel bus s = some s') :
    ∃ v, Walk (bridges cfg) (PciFunction.behind cfg) bus v ∧ s'.2 = s.2 ++ v := by
  induction fuel generalizing bus s s' with
  | zero => cases h
  | succ fuel ih =>
      rw [pciScanBusLogged_succ] at h
      have hturn : ∀ (s : PciArray × List UInt8) (f : PciFunction) s',
          checkDeviceLogged cfg krealloc
            (pciScanBusLogged cfg krealloc fuel) f.bus f.device f.function s
            = some s' → ∃ v, Adds cfg f v ∧ s'.2 = s.2 ++ v := by
        intro s f s' hcheck
        simp only [checkDeviceLogged, Adds] at hcheck ⊢
        split_ifs at hcheck ⊢
        · exact ih hcheck
        · obtain rfl := Option.some_inj.mp hcheck
          exact ⟨[], rfl, (List.append_nil _).symm⟩
      obtain ⟨sub, hsub, hlog⟩ := foldlM_adds (nodup_busFunctions cfg bus) hturn h
      refine ⟨_, walk_of_adds hsub, ?_⟩
      rw [hlog, List.append_assoc, List.singleton_append]

/-- A loop whose turns come back with something added to the log comes back with all of it added. -/
lemma foldlM_ends {σ α : Type} {body : σ × List UInt8 → α → Option (σ × List UInt8)}
    {sub : α → List UInt8} {l : List α}
    (hbody : ∀ x ∈ l, ∀ s, ∃ s', body s x = some s' ∧ s'.2 = s.2 ++ sub x) (s : σ × List UInt8) :
    ∃ s', l.foldlM body s = some s' ∧ s'.2 = s.2 ++ l.flatMap sub := by
  induction l generalizing s with
  | nil => exact ⟨s, rfl, (List.append_nil _).symm⟩
  | cons x l ih =>
      obtain ⟨s₁, hfirst, hlog⟩ := hbody x List.mem_cons_self s
      obtain ⟨s', hrest, hlogs⟩ := ih (fun y hy => hbody y (List.mem_cons_of_mem x hy)) s₁
      refine ⟨s', ?_, by rw [hlogs, hlog, List.flatMap_cons, List.append_assoc]⟩
      rw [List.foldlM_cons, hfirst]
      exact hrest

/-- **Where a walk ends the scan ends.** -/
lemma walk_scan (h : Walk (bridges cfg) (PciFunction.behind cfg) bus v)
    (krealloc : (ℕ → PciDevice) → ℕ → ℕ → PciDevice) :
    ∃ n, ∀ fuel, n ≤ fuel → ∀ s, ∃ s', pciScanBusLogged cfg krealloc fuel bus s = some s' ∧
      s'.2 = s.2 ++ v := by
  induction h with
  | visit bus sub _ ih =>
      choose! depth hdepth using ih
      refine ⟨((bridges cfg bus).map depth).sum + 1, fun fuel hfuel s => ?_⟩
      obtain ⟨k, rfl⟩ : ∃ k, fuel = k + 1 := ⟨fuel - 1, by omega⟩
      have hturn : ∀ f ∈ busFunctions cfg bus, ∀ s : PciArray × List UInt8, ∃ s',
          checkDeviceLogged cfg krealloc
            (pciScanBusLogged cfg krealloc k) f.bus f.device f.function s
            = some s' ∧
          s'.2 = s.2 ++ if isBridge cfg f.bus f.device f.function then sub f else [] := by
        intro f hf s
        rw [checkDeviceLogged]
        split_ifs with hbridge
        · have hmem : f ∈ bridges cfg bus := List.mem_filter.mpr ⟨hf, hbridge⟩
          have hle := List.le_sum_of_mem (List.mem_map_of_mem (f := depth) hmem)
          exact hdepth f hmem k (by omega) s
        · exact ⟨_, rfl, (List.append_nil _).symm⟩
      obtain ⟨s', hscan, hlog⟩ := foldlM_ends hturn (s.1, s.2 ++ [bus])
      refine ⟨s', (pciScanBusLogged_succ s).trans hscan, ?_⟩
      rw [hlog, bridges, flatMap_filter, List.append_assoc, List.singleton_append]

lemma ScansOnce.walk {s : PciArray} (h : ScansOnce cfg krealloc s) :
    ∃ v, Walk (bridges cfg) (PciFunction.behind cfg) 0 v ∧ v.Nodup := by
  obtain ⟨fuel, s', visits, _, hlogged, hnodup⟩ := h
  obtain ⟨v, hwalk, hlog⟩ := scan_walk hlogged
  rw [List.nil_append] at hlog
  exact ⟨v, hwalk, hlog ▸ hnodup⟩

lemma ScansOnce.of_walk (hwalk : Walk (bridges cfg) (PciFunction.behind cfg) 0 v) (hnodup : v.Nodup)
    (krealloc : (ℕ → PciDevice) → ℕ → ℕ → PciDevice) (s : PciArray) : ScansOnce cfg krealloc s := by
  obtain ⟨n, hn⟩ := walk_scan hwalk krealloc
  obtain ⟨s', hlogged, hlog⟩ := hn n le_rfl (s, [])
  have hcode := pciScanBusLogged_fst cfg krealloc n 0 (s, [])
  rw [hlogged] at hcode
  rw [List.nil_append] at hlog
  exact ⟨n, s'.1, s'.2, hcode.symm, hlogged, hlog ▸ hnodup⟩

/-- **The enumeration ends, and scans no bus twice, exactly if the bridges form a tree.** -/
theorem pciScanBus_once_iff (cfg : ConfigSpace) (krealloc : (ℕ → PciDevice) → ℕ → ℕ → PciDevice)
    (s : PciArray) : ScansOnce cfg krealloc s ↔ IsTree (Leads cfg) 0 := by
  have hfinite : Finite UInt8 :=
    Finite.of_injective UInt8.toFin fun a b h => UInt8.toNat_inj.mp (congrArg Fin.val h)
  rw [← walk_nodup_iff (lists_bridges cfg)]
  constructor
  · exact fun h => h.walk
  · rintro ⟨v, hwalk, hnodup⟩
    exact .of_walk hwalk hnodup krealloc s

/-- A bridge at device 1 of bus 0 that nobody has configured: its secondary bus is 0. -/
def unconfiguredBridge : ConfigSpace := fun address =>
  match (address.toNat - 2 ^ 31) / 2 ^ 8, address.toNat % 2 ^ 8 with
  | 0x008, 0x00 => 0x244e8086
  | 0x008, 0x08 => 0x06040000
  | 0x008, 0x0c => 0x00010000
  | 0x008, 0x18 => 0
  | _, _ => 0xffffffff

/-- The scan of bus 0 scans bus 0. -/
theorem pciScanBus_unconfigured :
    ¬ScansOnce unconfiguredBridge (fun entries _ => entries)
      ⟨fun _ => ⟨0, 0, 0, 0, 0, 0, 0, 0⟩, 0, 10⟩ := by
  intro h
  have hbridge : PciFunction.Bridge unconfiguredBridge ⟨0, 1, 0⟩ := by
    unfold PciFunction.Bridge
    decide
  obtain ⟨v, hwalk, hnodup⟩ := h.walk
  have htree := hwalk.isTree (lists_bridges unconfiguredBridge) hnodup
  exact htree.root_free 0 ⟨0, 1, 0⟩ .refl
    ⟨rfl, ⟨by decide, by decide, by decide⟩, hbridge, by decide⟩

end Seaweed

import Seaweed.Library.Sectors
import Seaweed.Libk.Output
import Seaweed.Mm.KHeap
import Seaweed.Mm.PhysicalPageManager

/-!
# The picture (`kernel/drivers/bmp.c`, `kernel/drivers/vesa.c`)

The rows of a bitmap are in the file from the bottom of the picture to the top.  `drawBmp` reads the
file into a buffer, and draws the first row at `biHeight` and each later one a line above.

* `setPixel`, `grabColour`, `drawBmp` — the code, with the list of the calls of `setPixel`.
* `DrawnFrom` — each pixel has its colour, from some line of the screen upwards, and there are no
  others.
* `drawRows_run`, `drawBmp_drawnFrom` — what is drawn: all rows, each a line too low.
* `grabColour_foldl`, `drawBmp_shows` — and that is what the screen shows.
* **`not_drawnInPlace`** — no picture is drawn in its place.
-/

namespace Seaweed

open Memory Sectors Words

/-! ## The code -/

/-- The globals of the screen. -/
structure Vesa where
  height : UInt16
  width : UInt16
  pitch : UInt16
  bpp : UInt16
  framebuffer : UInt32

/-- The place of a pixel.  The offset is computed in `int`s; here it is a number without a bound,
which is the same up to offsets of 2 GiB, and no screen has that many bytes. -/
def Vesa.pixelAddress (v : Vesa) (x y : UInt16) : UInt64 :=
  v.framebuffer.toUInt64 + HIGH_VMA +
    UInt64.ofNat (y.toNat * v.pitch.toNat + x.toNat * v.bpp.toNat / 8)

def setPixel (v : Vesa) (mem : Mem) (p : Pixel) : Mem :=
  store mem (v.pixelAddress p.x p.y) 4 p.colour.toNat

def grabColour (v : Vesa) (mem : Mem) (x y : UInt16) : UInt32 :=
  UInt32.ofNat (load mem (v.pixelAddress x y) 4)

/-- `bmpFileHdr->bfOffset`. -/
def bfOffset (mem : Mem) (bmpFileHdr : UInt64) : UInt32 :=
  UInt32.ofNat (load mem (bmpFileHdr + 10) 4)

/-- `bmpFileHdr->biHeight`. -/
def biHeight (mem : Mem) (bmpFileHdr : UInt64) : UInt32 :=
  UInt32.ofNat (load mem (bmpFileHdr + 22) 4)

/-- `data[k]`. -/
def dataAt (mem : Mem) (data : UInt64) (k : UInt32) : UInt32 :=
  UInt32.ofNat (load mem (data + UInt64.ofNat (4 * k.toNat)) 4)

/-- The memory, the calls of `setPixel`, and the counters of the place. -/
structure Drawing where
  mem : Mem
  pixels : List Pixel
  x : UInt64
  y : UInt64

/-- `setPixel(x++, y, data[j + (i * 1024)])`. -/
def drawPixel (v : Vesa) (data : UInt64) (i : UInt32) (s : Drawing) (j : ℕ) : Drawing :=
  let p : Pixel := ⟨s.x.toUInt16, s.y.toUInt16, dataAt s.mem data (UInt32.ofNat j + i * 1024)⟩
  { s with mem := setPixel v s.mem p, pixels := s.pixels ++ [p], x := s.x + 1 }

/-- The body of the outer loop. -/
def drawRow (v : Vesa) (data : UInt64) (i : UInt32) (s : Drawing) : Drawing :=
  let s := (List.range 1024).foldl (drawPixel v data i) s
  { s with x := 0, y := s.y - 1 }

lemma toNat_succ_of_lt {i n : UInt32} (h : i < n) : (i + 1).toNat = i.toNat + 1 := by
  have hi := UInt32.lt_iff_toNat_lt.mp h
  have hn := n.toNat_lt
  rw [UInt32.toNat_add, UInt32.toNat_one]
  omega

/-- The outer loop from `i` on; the height is read in each turn. -/
def drawRows (v : Vesa) (bmpFileHdr data : UInt64) (i : UInt32) (s : Drawing) : Drawing :=
  if i < biHeight s.mem bmpFileHdr then drawRows v bmpFileHdr data (i + 1) (drawRow v data i s)
  else s
termination_by 2 ^ 32 - i.toNat
decreasing_by
  have hnext := toNat_succ_of_lt ‹_›
  have hi := i.toNat_lt
  have hi' := (i + 1).toNat_lt
  omega

/-- How many sectors are read. -/
def bmpSectors : ℕ := 0x300 * 8 + 2

/-- The memory after the file has been read: the sectors from `0x7800` on, as `sataRW` transfers
them. -/
def loadBmp (disk : Disk) (mem : Mem) (buffer : UInt64) : Mem :=
  readSectors 0x200 disk (fun i => UInt64.ofNat i + 0x7800) buffer mem bmpSectors

/-- The buffer. -/
def bmpBuffer (pmm : Pmm) : UInt64 := (physicalPageAlloc pmm 0x300).1 + HIGH_VMA

/-- The name of the file is not used. -/
def drawBmp (v : Vesa) (disk : Disk) (mem : Mem) (pmm : Pmm) : Drawing × Pmm :=
  let bmpFileHdr := bmpBuffer pmm
  let mem := loadBmp disk mem bmpFileHdr
  let data := bmpFileHdr + (bfOffset mem bmpFileHdr).toUInt64
  (drawRows v bmpFileHdr data 0 ⟨mem, [], 0, (biHeight mem bmpFileHdr).toUInt64⟩,
    (physicalPageAlloc pmm 0x300).2)

/-! ## What should hold -/

/-- The colour that a pixel has been set to last. -/
def lastColour (pixels : List Pixel) (x y : ℕ) : Option UInt32 :=
  (pixels.reverse.find? fun p => p.x.toNat = x ∧ p.y.toNat = y).map Pixel.colour

/-- Pixel `x` of row `r` of the file, which is in the buffer. -/
def fileRow (mem : Mem) (bmpFileHdr : UInt64) (r x : ℕ) : UInt32 :=
  UInt32.ofNat
    (load mem (bmpFileHdr + (bfOffset mem bmpFileHdr).toUInt64 +
      UInt64.ofNat (4 * (x + r * 1024))) 4)

/-- The rows of a file of the height `h` are drawn from the line `top` upwards, and no other pixel
is set. -/
structure DrawnFrom (pixels : List Pixel) (h top : ℕ) (row : ℕ → ℕ → UInt32) : Prop where
  sets : ∀ r x, r < h → x < 1024 → lastColour pixels x (top - r) = some (row r x)
  only : ∀ p ∈ pixels, p.x.toNat < 1024 ∧ p.y.toNat ≤ top ∧ top < p.y.toNat + h

/-- `drawBmp` draws the first row in the last line of the picture. -/
def DrawnInPlace (v : Vesa) (disk : Disk) (mem : Mem) (pmm : Pmm) : Prop :=
  let loaded := loadBmp disk mem (bmpBuffer pmm)
  let h := (biHeight loaded (bmpBuffer pmm)).toNat
  DrawnFrom (drawBmp v disk mem pmm).1.pixels h (h - 1) (fileRow loaded (bmpBuffer pmm))

/-- No pixel of the screen is in the buffer. -/
def Vesa.ApartFrom (v : Vesa) (buffer : UInt64) : Prop :=
  ∀ x y, Apart (v.pixelAddress x y) 4 buffer (0x200 * bmpSectors)

variable {v : Vesa} {disk : Disk} {mem mem' : Mem} {pmm : Pmm} {bmpFileHdr data : UInt64}
  {s : Drawing} {i : UInt32} {h n r x : ℕ} {p : Pixel}

/-! ## One pixel -/

/-- **A pixel that is set has its colour.** -/
theorem grabColour_setPixel (v : Vesa) (mem : Mem) (p : Pixel) :
    grabColour v (setPixel v mem p) p.x p.y = p.colour := by
  have hcolour : p.colour.toNat < 256 ^ 4 := p.colour.toNat_lt
  rw [grabColour, setPixel, load_store (by decide), Nat.mod_eq_of_lt hcolour, UInt32.ofNat_toNat]

/-- The buffers are the same. -/
def SameBuffer (buffer : UInt64) (mem mem' : Mem) : Prop :=
  ∀ k, k < 0x200 * bmpSectors → mem (buffer + UInt64.ofNat k) = mem' (buffer + UInt64.ofNat k)

lemma SameBuffer.load (h : SameBuffer bmpFileHdr mem mem') {k m : ℕ}
    (hk : k + m ≤ 0x200 * bmpSectors) :
    load mem (bmpFileHdr + UInt64.ofNat k) m = load mem' (bmpFileHdr + UInt64.ofNat k) m := by
  refine load_congr fun i hi => ?_
  rw [UInt64.add_assoc, ← UInt64.ofNat_add]
  exact h (k + i) (by omega)

lemma SameBuffer.biHeight (h : SameBuffer bmpFileHdr mem mem') :
    biHeight mem bmpFileHdr = biHeight mem' bmpFileHdr :=
  congrArg UInt32.ofNat (h.load (k := 22) (by decide))

/-- A pixel of the screen is not in the buffer. -/
lemma sameBuffer_setPixel (hv : v.ApartFrom bmpFileHdr) (mem : Mem) (p : Pixel) :
    SameBuffer bmpFileHdr (setPixel v mem p) mem :=
  fun k hk => store_outside (hv p.x p.y k hk)

/-! ## What is drawn -/

/-- The call for pixel `x` of row `r`, in a picture of the height `h`. -/
def drawnPixel (mem : Mem) (bmpFileHdr : UInt64) (h r x : ℕ) : Pixel :=
  ⟨UInt16.ofNat x, UInt16.ofNat (h - r), fileRow mem bmpFileHdr r x⟩

def drawnRow (mem : Mem) (bmpFileHdr : UInt64) (h r : ℕ) : List Pixel :=
  (List.range 1024).map (drawnPixel mem bmpFileHdr h r)

/-- The rows are in the buffer, below the header. -/
def RowsInBuffer (mem : Mem) (bmpFileHdr : UInt64) (h : ℕ) : Prop :=
  (bfOffset mem bmpFileHdr).toNat + 4 * (1024 * h) ≤ 0x200 * bmpSectors

/-- A picture that is in the buffer has at most 768 rows. -/
lemma RowsInBuffer.height (hrows : RowsInBuffer mem bmpFileHdr h) : h ≤ 768 := by
  have hbytes : 0x200 * bmpSectors = 3146752 := by decide
  rw [RowsInBuffer, hbytes] at hrows
  omega

/-- The colour that is read for pixel `x` of row `r`. -/
lemma dataAt_fileRow (hsame : SameBuffer bmpFileHdr mem' mem)
    (hrows : RowsInBuffer mem bmpFileHdr h) (hr : r < h) (hx : x < 1024) :
    dataAt mem' (bmpFileHdr + (bfOffset mem bmpFileHdr).toUInt64)
      (UInt32.ofNat x + UInt32.ofNat r * 1024) =
      fileRow mem bmpFileHdr r x := by
  have hheight := hrows.height
  have hindex : (UInt32.ofNat x + UInt32.ofNat r * 1024).toNat = x + r * 1024 := by
    have hfactor : (1024 : UInt32).toNat = 1024 := rfl
    rw [UInt32.toNat_add, UInt32.toNat_mul, UInt32.toNat_ofNat', UInt32.toNat_ofNat', hfactor]
    omega
  rw [dataAt, fileRow, hindex, ← UInt64.ofNat_uInt32ToNat, UInt64.add_assoc, ← UInt64.ofNat_add]
  refine congrArg UInt32.ofNat (hsame.load ?_)
  rw [RowsInBuffer] at hrows
  omega

/-- After `n` pixels of row `r`. -/
structure PixelsDrawn (mem : Mem) (bmpFileHdr : UInt64) (h r : ℕ) (s : Drawing) (n : ℕ)
    (s' : Drawing) :
    Prop where
  same : SameBuffer bmpFileHdr s'.mem mem
  pixels : s'.pixels = s.pixels ++ (List.range n).map (drawnPixel mem bmpFileHdr h r)
  x : s'.x = UInt64.ofNat n
  y : s'.y = s.y

/-- **A row is drawn** pixel by pixel. -/
lemma pixelsDrawn_run (hv : v.ApartFrom bmpFileHdr) (hrows : RowsInBuffer mem bmpFileHdr h)
    (hr : r < h) (hsame : SameBuffer bmpFileHdr s.mem mem) (hx : s.x = 0)
    (hy : s.y = UInt64.ofNat (h - r))
    (hn : n ≤ 1024) :
    PixelsDrawn mem bmpFileHdr h r s n ((List.range n).foldl
      (drawPixel v (bmpFileHdr + (bfOffset mem bmpFileHdr).toUInt64) (UInt32.ofNat r)) s) := by
  induction n with
  | zero => exact ⟨hsame, (List.append_nil _).symm, hx, rfl⟩
  | succ n ih =>
      have hbefore := ih (Nat.le_of_succ_le hn)
      rw [List.range_succ, List.foldl_append, List.foldl_cons, List.foldl_nil]
      generalize (List.range n).foldl _ s = t at hbefore ⊢
      have hpixel : Pixel.mk t.x.toUInt16 t.y.toUInt16
          (dataAt t.mem (bmpFileHdr + (bfOffset mem bmpFileHdr).toUInt64)
            (UInt32.ofNat n + UInt32.ofNat r * 1024)) = drawnPixel mem bmpFileHdr h r n := by
        rw [dataAt_fileRow hbefore.same hrows hr hn, hbefore.x, hbefore.y, hy,
          UInt64.toUInt16_ofNat', UInt64.toUInt16_ofNat', drawnPixel]
      rw [drawPixel]
      constructor
      case same =>
        intro k hk
        exact (sameBuffer_setPixel hv t.mem _ k hk).trans (hbefore.same k hk)
      case pixels =>
        dsimp only
        rw [hpixel, hbefore.pixels, List.append_assoc, List.range_succ, List.map_append,
          List.map_singleton]
      case x =>
        dsimp only
        rw [hbefore.x, UInt64.ofNat_add]
        rfl
      case y => exact hbefore.y

/-- After `r` rows. -/
structure RowsDrawn (mem : Mem) (bmpFileHdr : UInt64) (h r : ℕ) (s : Drawing) : Prop where
  same : SameBuffer bmpFileHdr s.mem mem
  pixels : s.pixels = (List.range r).flatMap (drawnRow mem bmpFileHdr h)
  x : s.x = 0
  y : s.y = UInt64.ofNat (h - r)

/-- **One row more.** -/
lemma RowsDrawn.next (hdrawn : RowsDrawn mem bmpFileHdr h r s) (hv : v.ApartFrom bmpFileHdr)
    (hrows : RowsInBuffer mem bmpFileHdr h) (hr : r < h) :
    RowsDrawn mem bmpFileHdr h (r + 1)
      (drawRow v (bmpFileHdr + (bfOffset mem bmpFileHdr).toUInt64) (UInt32.ofNat r) s) := by
  have hrow := pixelsDrawn_run hv hrows hr hdrawn.same hdrawn.x hdrawn.y (le_refl 1024)
  rw [drawRow]
  generalize (List.range 1024).foldl _ s = t at hrow ⊢
  constructor
  case same => exact hrow.same
  case pixels =>
    rw [List.range_succ, List.flatMap_append, List.flatMap_singleton, ← hdrawn.pixels]
    exact hrow.pixels
  case x => rfl
  case y =>
    have hline : h - r = h - (r + 1) + 1 := by omega
    dsimp only
    rw [hrow.y, hdrawn.y, hline, UInt64.ofNat_add]
    exact UInt64.add_sub_cancel _ _

/-- **All rows are drawn.** -/
lemma drawRows_run (hdrawn : RowsDrawn mem bmpFileHdr h r s) (hv : v.ApartFrom bmpFileHdr)
    (hrows : RowsInBuffer mem bmpFileHdr h) (hheight : (biHeight mem bmpFileHdr).toNat = h)
    (hr : r ≤ h) :
    RowsDrawn mem bmpFileHdr h h
      (drawRows v bmpFileHdr (bmpFileHdr + (bfOffset mem bmpFileHdr).toUInt64)
        (UInt32.ofNat r) s) := by
  have hlt := (biHeight mem bmpFileHdr).toNat_lt
  have hindex : (UInt32.ofNat r).toNat = r := by
    rw [UInt32.toNat_ofNat']
    omega
  induction hleft : h - r generalizing r s with
  | zero =>
      obtain rfl : r = h := by omega
      rw [drawRows, hdrawn.same.biHeight, if_neg]
      · exact hdrawn
      · rw [UInt32.lt_iff_toNat_lt, hindex, hheight]
        exact lt_irrefl r
  | succ left ih =>
      have hmore : r < h := by omega
      have hnext : UInt32.ofNat r + 1 = UInt32.ofNat (r + 1) := (UInt32.ofNat_add r 1).symm
      rw [drawRows, hdrawn.same.biHeight, if_pos, hnext]
      · refine ih (hdrawn.next hv hrows hmore) hmore ?_ (by omega)
        rw [UInt32.toNat_ofNat']
        omega
      · rwa [UInt32.lt_iff_toNat_lt, hindex, hheight]

/-- Before the first row. -/
lemma rowsDrawn_zero (mem : Mem) (bmpFileHdr : UInt64) :
    RowsDrawn mem bmpFileHdr (biHeight mem bmpFileHdr).toNat 0
      ⟨mem, [], 0, (biHeight mem bmpFileHdr).toUInt64⟩ := by
  constructor
  case same => exact fun _ _ => rfl
  case pixels => rfl
  case x => rfl
  case y => exact (UInt64.ofNat_uInt32ToNat _).symm

/-- If the calls for a pixel have one colour, it is that. -/
lemma lastColour_eq {pixels : List Pixel} {x y : ℕ} {colour : UInt32}
    (hset : ∃ p ∈ pixels, p.x.toNat = x ∧ p.y.toNat = y)
    (hcolour : ∀ p ∈ pixels, p.x.toNat = x → p.y.toNat = y → p.colour = colour) :
    lastColour pixels x y = some colour := by
  obtain ⟨p, hp, hplace⟩ := hset
  have hfound : (pixels.reverse.find? fun p => p.x.toNat = x ∧ p.y.toNat = y).isSome :=
    List.find?_isSome.mpr ⟨p, List.mem_reverse.mpr hp, decide_eq_true hplace⟩
  obtain ⟨q, hq⟩ := Option.isSome_iff_exists.mp hfound
  have hq' : q.x.toNat = x ∧ q.y.toNat = y := by simpa using List.find?_some hq
  rw [lastColour, hq, Option.map_some,
    hcolour q (List.mem_reverse.mp (List.mem_of_find?_eq_some hq)) hq'.1 hq'.2]

lemma mem_drawnRows : p ∈ (List.range h).flatMap (drawnRow mem bmpFileHdr h) ↔
    ∃ r < h, ∃ x < 1024, drawnPixel mem bmpFileHdr h r x = p := by
  simp only [drawnRow, List.mem_flatMap, List.mem_map, List.mem_range]

/-- The rows are drawn from the line `h` upwards. -/
lemma drawnRows_drawnFrom (mem : Mem) (bmpFileHdr : UInt64) (hh : h < 2 ^ 16) :
    DrawnFrom ((List.range h).flatMap (drawnRow mem bmpFileHdr h)) h h
      (fileRow mem bmpFileHdr) := by
  have hplace : ∀ r x, x < 1024 → (drawnPixel mem bmpFileHdr h r x).x.toNat = x ∧
      (drawnPixel mem bmpFileHdr h r x).y.toNat = h - r := by
    intro r x hx
    rw [drawnPixel, UInt16.toNat_ofNat', UInt16.toNat_ofNat']
    omega
  constructor
  case sets =>
    intro r x hr hx
    refine lastColour_eq ⟨_, mem_drawnRows.mpr ⟨r, hr, x, hx, rfl⟩, hplace r x hx⟩ ?_
    intro p hp hpx hpy
    obtain ⟨r', hr', x', hx', rfl⟩ := mem_drawnRows.mp hp
    obtain ⟨hpx', hpy'⟩ := hplace r' x' hx'
    obtain rfl : x' = x := hpx'.symm.trans hpx
    obtain rfl : r' = r := by omega
    rfl
  case only =>
    intro p hp
    obtain ⟨r, hr, x, hx, rfl⟩ := mem_drawnRows.mp hp
    obtain ⟨hpx, hpy⟩ := hplace r x hx
    omega

/-- **What `drawBmp` draws**: the whole file, a line too low. -/
theorem drawBmp_drawnFrom (disk : Disk) (mem : Mem) (hv : v.ApartFrom (bmpBuffer pmm))
    (hh : (biHeight (loadBmp disk mem (bmpBuffer pmm)) (bmpBuffer pmm)).toNat = h)
    (hrows : RowsInBuffer (loadBmp disk mem (bmpBuffer pmm)) (bmpBuffer pmm) h) :
    DrawnFrom (drawBmp v disk mem pmm).1.pixels h h
      (fileRow (loadBmp disk mem (bmpBuffer pmm)) (bmpBuffer pmm)) := by
  subst hh
  have hdrawn := drawRows_run (rowsDrawn_zero _ _) hv hrows rfl (Nat.zero_le _)
  have hpixels : (drawBmp v disk mem pmm).1.pixels = _ := hdrawn.pixels
  rw [hpixels]
  exact drawnRows_drawnFrom _ _ (hrows.height.trans_lt (by decide))

/-! ## The calls -/

lemma foldl_drawPixel_invariant {inv : Drawing → Prop}
    (hpixel : ∀ i s j, inv s → inv (drawPixel v data i s j)) (js : List ℕ) (hs : inv s) :
    inv (js.foldl (drawPixel v data i) s) := by
  induction js generalizing s with
  | nil => exact hs
  | cons j js ih => exact ih (hpixel i s j hs)

/-- What every call keeps, and the end of a line, the loops keep. -/
lemma drawRows_invariant {inv : Drawing → Prop}
    (hpixel : ∀ i s j, inv s → inv (drawPixel v data i s j))
    (hline : ∀ s, inv s → inv { s with x := 0, y := s.y - 1 }) (hs : inv s) :
    inv (drawRows v bmpFileHdr data i s) := by
  induction hleft : 2 ^ 32 - i.toNat using Nat.strong_induction_on generalizing i s with
  | _ left ih =>
      rw [drawRows]
      split_ifs with hi
      · have hnext := toNat_succ_of_lt hi
        have hlt := (i + 1).toNat_lt
        have hrow : inv (drawRow v data i s) := by
          rw [drawRow]
          exact hline _ (foldl_drawPixel_invariant hpixel _ hs)
        exact ih (2 ^ 32 - (i + 1).toNat) (by omega) hrow rfl
      · exact hs

/-- A call that has been made stays. -/
lemma mem_drawPixel (p : Pixel) (i : UInt32) (s : Drawing) (j : ℕ) (hp : p ∈ s.pixels) :
    p ∈ (drawPixel v data i s j).pixels := List.mem_append_left _ hp

/-- The first call of a row. -/
lemma drawPixel_first (v : Vesa) (data : UInt64) (i : UInt32) (s : Drawing) (n : ℕ) :
    ⟨s.x.toUInt16, s.y.toUInt16, dataAt s.mem data (UInt32.ofNat 0 + i * 1024)⟩ ∈
      ((List.range (n + 1)).foldl (drawPixel v data i) s).pixels := by
  rw [List.range_succ_eq_map, List.foldl_cons]
  exact foldl_drawPixel_invariant (mem_drawPixel _) _
    (List.mem_append_right _ (List.mem_singleton_self _))

lemma drawRow_first (v : Vesa) (data : UInt64) (i : UInt32) (s : Drawing) :
    ⟨s.x.toUInt16, s.y.toUInt16, dataAt s.mem data (UInt32.ofNat 0 + i * 1024)⟩ ∈
      (drawRow v data i s).pixels := by
  have hpixels : (drawRow v data i s).pixels =
      ((List.range 1024).foldl (drawPixel v data i) s).pixels := by
    rw [drawRow]
  rw [hpixels]
  exact drawPixel_first v data i s 1023

/-- A picture that has a row begins at the counters. -/
lemma drawRows_first (v : Vesa) (data : UInt64) (s : Drawing)
    (hheight : 0 < biHeight s.mem bmpFileHdr) :
    ⟨s.x.toUInt16, s.y.toUInt16, dataAt s.mem data (UInt32.ofNat 0 + 0 * 1024)⟩ ∈
      (drawRows v bmpFileHdr data 0 s).pixels := by
  rw [drawRows, if_pos hheight]
  exact drawRows_invariant (mem_drawPixel _) (fun _ hp => hp) (drawRow_first v data 0 s)

/-! ## The frame buffer -/

/-- The screen has lines of `width` pixels of 32 bits. -/
structure Vesa.Shows (v : Vesa) (width : ℕ) : Prop where
  bpp : v.bpp = 32
  pitch : 4 * width ≤ v.pitch.toNat

/-- Different pixels are apart. -/
lemma Vesa.Shows.apart {width : ℕ} (hv : v.Shows width) {x y x' y' : UInt16} (hx : x.toNat < width)
    (hx' : x'.toNat < width) (hne : ¬(x.toNat = x'.toNat ∧ y.toNat = y'.toNat)) :
    Apart (v.pixelAddress x y) 4 (v.pixelAddress x' y') 4 := by
  have hpitch := hv.pitch
  have hbpp : v.bpp.toNat = 32 := by rw [hv.bpp]; rfl
  have hline : ∀ a b : ℕ, a < b → a * v.pitch.toNat + v.pitch.toNat ≤ b * v.pitch.toNat := by
    intro a b hab
    rw [← Nat.succ_mul]
    exact Nat.mul_le_mul_right _ hab
  have hbound : ∀ y : UInt16, y.toNat * v.pitch.toNat < 2 ^ 32 := fun y =>
    (Nat.mul_lt_mul'' y.toNat_lt v.pitch.toNat_lt).trans_le (by decide)
  have hy := hbound y
  have hy' := hbound y'
  have hlt := v.pitch.toNat_lt
  rw [Vesa.pixelAddress, Vesa.pixelAddress, hbpp]
  refine apart_offsets _ (by omega) (by omega) ?_
  rcases Nat.lt_trichotomy y.toNat y'.toNat with habove | hsame | hbelow
  · have := hline _ _ habove
    omega
  · rw [hsame]
    omega
  · have := hline _ _ hbelow
    omega

lemma grabColour_setPixel_of_ne {width : ℕ} (hv : v.Shows width) (mem : Mem) {x y : UInt16}
    (hp : p.x.toNat < width) (hx : x.toNat < width)
    (hne : ¬(p.x.toNat = x.toNat ∧ p.y.toNat = y.toNat)) :
    grabColour v (setPixel v mem p) x y = grabColour v mem x y :=
  congrArg UInt32.ofNat (load_store_apart (hv.apart hp hx hne))

lemma lastColour_concat (pixels : List Pixel) (p : Pixel) (x y : ℕ) :
    lastColour (pixels ++ [p]) x y =
    if p.x.toNat = x ∧ p.y.toNat = y then some p.colour else lastColour pixels x y := by
  rw [lastColour, List.reverse_append, List.reverse_singleton, List.singleton_append]
  split_ifs with hplace
  · rw [List.find?_cons_of_pos (by simpa using hplace), Option.map_some]
  · rw [List.find?_cons_of_neg (by simpa using hplace)]
    rfl

/-- **What the screen shows** is what each pixel has been set to last. -/
theorem grabColour_foldl {width : ℕ} (hv : v.Shows width) (mem : Mem) (pixels : List Pixel)
    (hpixels : ∀ p ∈ pixels, p.x.toNat < width) {x y : UInt16} (hx : x.toNat < width) :
    grabColour v (pixels.foldl (setPixel v) mem) x y =
      (lastColour pixels x.toNat y.toNat).getD (grabColour v mem x y) := by
  induction pixels using List.reverseRecOn with
  | nil => rfl
  | append_singleton pixels p ih =>
      have hbefore := ih fun q hq => hpixels q (List.mem_append_left _ hq)
      have hp := hpixels p (List.mem_append_right _ (List.mem_singleton_self p))
      rw [List.foldl_append, List.foldl_cons, List.foldl_nil, lastColour_concat]
      split_ifs with hplace
      · obtain ⟨hpx, hpy⟩ := hplace
        rw [← UInt16.toNat_inj.mp hpx, ← UInt16.toNat_inj.mp hpy, grabColour_setPixel]
        rfl
      · rw [grabColour_setPixel_of_ne hv _ hp hx hplace, hbefore]

/-- The memory is what the calls have made of it. -/
lemma drawBmp_mem (v : Vesa) (disk : Disk) (mem : Mem) (pmm : Pmm) :
    (drawBmp v disk mem pmm).1.mem =
      (drawBmp v disk mem pmm).1.pixels.foldl (setPixel v) (loadBmp disk mem (bmpBuffer pmm)) := by
  have hpixel : ∀ data i (s : Drawing) j,
      s.mem = s.pixels.foldl (setPixel v) (loadBmp disk mem (bmpBuffer pmm)) →
      (drawPixel v data i s j).mem =
        (drawPixel v data i s j).pixels.foldl (setPixel v) (loadBmp disk mem (bmpBuffer pmm)) := by
    intro data i s j hs
    rw [drawPixel]
    dsimp only
    rw [List.foldl_append, ← hs]
    rfl
  exact drawRows_invariant (hpixel _) (fun _ hs => hs) rfl

/-- **The picture on the screen**: row `r` of the file is in line `h - r`. -/
theorem drawBmp_shows (disk : Disk) (mem : Mem) (hv : v.ApartFrom (bmpBuffer pmm))
    (hshows : v.Shows 1024)
    (hh : (biHeight (loadBmp disk mem (bmpBuffer pmm)) (bmpBuffer pmm)).toNat = h)
    (hrows : RowsInBuffer (loadBmp disk mem (bmpBuffer pmm)) (bmpBuffer pmm) h) (hr : r < h)
    (hx : x < 1024) :
    grabColour v (drawBmp v disk mem pmm).1.mem (UInt16.ofNat x) (UInt16.ofNat (h - r)) =
      fileRow (loadBmp disk mem (bmpBuffer pmm)) (bmpBuffer pmm) r x := by
  have hdrawn := drawBmp_drawnFrom disk mem hv hh hrows
  have hheight := hrows.height
  have hx' : (UInt16.ofNat x).toNat = x := by
    rw [UInt16.toNat_ofNat']
    omega
  have hy' : (UInt16.ofNat (h - r)).toNat = h - r := by
    rw [UInt16.toNat_ofNat']
    omega
  rw [drawBmp_mem, grabColour_foldl hshows _ _ (fun p hp => (hdrawn.only p hp).1) (by rwa [hx']),
    hx', hy', hdrawn.sets r x hr hx, Option.getD_some]

/-! ## The line below the picture -/

/-- **The first row is drawn below the picture.** -/
lemma drawBmp_below (v : Vesa) (disk : Disk) (mem : Mem) (pmm : Pmm)
    (hheight : 0 < biHeight (loadBmp disk mem (bmpBuffer pmm)) (bmpBuffer pmm))
    (hscreen : biHeight (loadBmp disk mem (bmpBuffer pmm)) (bmpBuffer pmm) ≤ v.height.toUInt32) :
    ∃ p ∈ (drawBmp v disk mem pmm).1.pixels,
      p.y.toNat = (biHeight (loadBmp disk mem (bmpBuffer pmm)) (bmpBuffer pmm)).toNat := by
  have hle := UInt32.le_iff_toNat_le.mp hscreen
  have hlt := v.height.toNat_lt
  rw [UInt16.toNat_toUInt32] at hle
  refine ⟨_, drawRows_first v _ ⟨_, [], 0, _⟩ hheight, ?_⟩
  dsimp only
  rw [UInt64.toNat_toUInt16, UInt32.toNat_toUInt64]
  omega

/-- **No picture is drawn in its place.** -/
theorem not_drawnInPlace (v : Vesa) (disk : Disk) (mem : Mem) (pmm : Pmm)
    (hheight : 0 < biHeight (loadBmp disk mem (bmpBuffer pmm)) (bmpBuffer pmm))
    (hscreen : biHeight (loadBmp disk mem (bmpBuffer pmm)) (bmpBuffer pmm) ≤ v.height.toUInt32) :
    ¬ DrawnInPlace v disk mem pmm := by
  intro h
  obtain ⟨p, hp, hy⟩ := drawBmp_below v disk mem pmm hheight hscreen
  have hline := (h.only p hp).2.1
  have hpos := UInt32.lt_iff_toNat_lt.mp hheight
  rw [hy] at hline
  rw [UInt32.toNat_zero] at hpos
  omega

/-! ## Two pictures -/

/-- What is loaded from the first sector. -/
lemma load_loadBmp (disk : Disk) (mem : Mem) (buffer : UInt64) {k m : ℕ} (hk : k + m ≤ 0x200) :
    load (loadBmp disk mem buffer) (buffer + UInt64.ofNat k) m =
      load (fun a => disk 0x7800 a.toNat) (UInt64.ofNat k) m := by
  have hbytes : 0x200 * bmpSectors = 3146752 := by decide
  refine load_congr fun i hi => ?_
  rw [UInt64.add_assoc, ← UInt64.ofNat_add, loadBmp, readSectors_apply (by rw [hbytes]; omega),
    toNat_add_ofNat_sub buffer (by omega), if_pos (by rw [hbytes]; omega),
    Nat.div_eq_of_lt (by omega), Nat.mod_eq_of_lt (by omega), toNat_ofNat_of_lt (by omega)]
  rfl

lemma biHeight_loadBmp (disk : Disk) (mem : Mem) (buffer : UInt64) :
    biHeight (loadBmp disk mem buffer) buffer =
      UInt32.ofNat (load (fun a => disk 0x7800 a.toNat) (UInt64.ofNat 22) 4) :=
  congrArg UInt32.ofNat (load_loadBmp disk mem buffer (by decide))

/-- The fields of a header and their widths, for a picture of this height. -/
def bmpFields (height : ℕ) : List (ℕ × ℕ) :=
  [(2, 0x4d42), (4, 66 + 4096 * height), (4, 0), (4, 66), (4, 40), (4, 1024), (4, height), (2, 1),
    (2, 32), (4, 3), (4, 4096 * height), (4, 0), (4, 0), (4, 0), (4, 0), (4, 0xff0000), (4, 0xff00),
    (4, 0xff)]

def bmpHeader (height : ℕ) : List UInt8 :=
  (bmpFields height).flatMap fun (n, w) => (List.range n).map fun i => UInt8.ofNat (w / 256 ^ i)

/-- A disk with a picture on it, whose pixels are black. -/
def bmpDisk (height : ℕ) : Disk := fun sector k =>
  if sector = 0x7800 then (bmpHeader height)[k]?.getD 0 else 0

/-- A screen of 1024 times 768 pixels. -/
def bmpScreen : Vesa := ⟨768, 1024, 4096, 32, 0xe0000000⟩

/-- 128 MiB, with the pages below `0x120000` in use. -/
def bmpPmm : Pmm := ⟨fun i => if i < 36 then 0xff else 0, 0x8000000, false⟩

/-- A picture of one row. -/
theorem not_drawnInPlace_oneRow : ¬ DrawnInPlace bmpScreen (bmpDisk 1) (fun _ => 0) bmpPmm := by
  have hheight := biHeight_loadBmp (bmpDisk 1) (fun _ => 0) (bmpBuffer bmpPmm)
  refine not_drawnInPlace bmpScreen (bmpDisk 1) (fun _ => 0) bmpPmm ?_ ?_ <;> rw [hheight]
    <;> decide

/-- A picture as high as the screen has a row that is drawn below the screen. -/
theorem not_drawnInPlace_fullScreen :
    (∃ p ∈ (drawBmp bmpScreen (bmpDisk 768) (fun _ => 0) bmpPmm).1.pixels, p.y = bmpScreen.height) ∧
      ¬ DrawnInPlace bmpScreen (bmpDisk 768) (fun _ => 0) bmpPmm := by
  have hheight : biHeight (loadBmp (bmpDisk 768) (fun _ => 0) (bmpBuffer bmpPmm))
      (bmpBuffer bmpPmm) = 768 := by
    rw [biHeight_loadBmp]
    decide
  obtain ⟨p, hp, hy⟩ := drawBmp_below bmpScreen (bmpDisk 768) (fun _ => 0) bmpPmm
    (by rw [hheight]; decide) (by rw [hheight]; decide)
  refine ⟨⟨p, hp, UInt16.toNat_inj.mp (by rw [hy, hheight]; decide)⟩, fun h => ?_⟩
  exact absurd (h.only p hp).2.1 (by rw [hy, hheight]; decide)

end Seaweed

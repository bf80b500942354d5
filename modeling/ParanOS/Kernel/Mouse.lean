import Mathlib.Data.List.Basic
import Mathlib.Logic.Function.Basic
import Mathlib.Order.MinMax

/-! # Mouse packets

The interrupt handler of the mouse receives one byte at a time. A packet has three of them:
the buttons with the sign bits of the movements, and the low eight bits of each movement. The
handler takes these eight bits as a signed number and never looks at the sign bits.
-/

namespace ParanOS

/-- The static variables of the driver. -/
structure Mouse where
  cycle : Fin 3
  bytes : Fin 3 → Int8
  x : Int
  y : Int
  screenW : Int
  screenH : Int

namespace Mouse

/-- The variables before `mouse_init`. -/
def zero : Mouse := ⟨0, fun _ => 0, 0, 0, 0, 0⟩

/-- `mouse_init`, as far as it sets variables. -/
def init (mouse : Mouse) (fbW fbH : Nat) : Mouse :=
  { mouse with screenW := fbW, screenH := fbH, x := (fbW / 2 : Nat), y := (fbH / 2 : Nat) }

/-- The comparisons that keep a coordinate on the screen. -/
def clip (size position : Int) : Int :=
  let position := if position < 0 then 0 else position
  if position ≥ size then size - 1 else position

def irqHandler (mouse : Mouse) (data : UInt8) : Mouse :=
  if mouse.cycle = 0 ∧ data &&& 0x08 = 0 then mouse
  else
    let bytes := Function.update mouse.bytes mouse.cycle data.toInt8
    if mouse.cycle.val + 1 = 3 then
      let dx := (bytes 1).toInt
      let dy := -(bytes 2).toInt
      { mouse with
        cycle := 0
        bytes := bytes
        x := clip mouse.screenW (mouse.x + dx)
        y := clip mouse.screenH (mouse.y + dy) }
    else { mouse with cycle := mouse.cycle + 1, bytes := bytes }

def getButtons (mouse : Mouse) : UInt8 := (mouse.bytes 0).toUInt8 &&& 0x07

end Mouse

/-! ## Packets -/

/-- A packet of the mouse: bit 3 of the first byte is set, the overflow bits are clear. -/
structure Packet where
  flags : UInt8
  lowX : UInt8
  lowY : UInt8
  marked : flags &&& 0xC8 = 0x08

namespace Packet

def bytes (packet : Packet) : List UInt8 := [packet.flags, packet.lowX, packet.lowY]

/-- A movement of nine bits in two's complement. -/
def movement (sign : Bool) (low : UInt8) : Int := low.toNat - (if sign then 256 else 0)

def dx (packet : Packet) : Int := movement (packet.flags &&& 0x10 ≠ 0) packet.lowX

def dy (packet : Packet) : Int := movement (packet.flags &&& 0x20 ≠ 0) packet.lowY

end Packet

namespace Mouse

/-- The bytes of packets one after another. -/
def receive (mouse : Mouse) (packets : List Packet) : Mouse :=
  (packets.flatMap Packet.bytes).foldl irqHandler mouse

/-- A packet is expected next, and the pointer is on the screen. -/
structure Ready (mouse : Mouse) : Prop where
  boundary : mouse.cycle = 0
  x_nonneg : 0 ≤ mouse.x
  x_lt : mouse.x < mouse.screenW
  y_nonneg : 0 ≤ mouse.y
  y_lt : mouse.y < mouse.screenH

/-- The pointer has been moved by what the packet says, but not off the screen, and the buttons
are those of the packet. -/
structure Moved (mouse : Mouse) (packet : Packet) (mouse' : Mouse) : Prop where
  x : mouse'.x = max 0 (min (mouse.screenW - 1) (mouse.x + packet.dx))
  y : mouse'.y = max 0 (min (mouse.screenH - 1) (mouse.y - packet.dy))
  buttons : mouse'.getButtons = packet.flags &&& 0x07

/-- A movement fits into a signed byte. Of the others, those do no harm that are on a screen
with one place, and the longest one out of the screen when the pointer is at this edge. -/
def Fits (delta size distance : Int) : Prop :=
  (-128 ≤ delta ∧ delta < 128) ∨ size = 1 ∨ (delta = -256 ∧ distance = 0)

/-- The condition on a packet. The upper edge is where the movement in Y ends. -/
structure Slow (mouse : Mouse) (packet : Packet) : Prop where
  x : Fits packet.dx mouse.screenW mouse.x
  y : Fits packet.dy mouse.screenH (mouse.screenH - 1 - mouse.y)

theorem init_ready {mouse : Mouse} (boundary : mouse.cycle = 0) {fbW fbH : Nat} (wide : 1 ≤ fbW)
    (high : 1 ≤ fbH) : (mouse.init fbW fbH).Ready where
  boundary := boundary
  x_nonneg := Int.natCast_nonneg (fbW / 2)
  x_lt := Int.ofNat_lt.mpr (Nat.div_lt_self wide (by omega))
  y_nonneg := Int.natCast_nonneg (fbH / 2)
  y_lt := Int.ofNat_lt.mpr (Nat.div_lt_self high (by omega))

theorem clip_eq {size : Int} (positive : 1 ≤ size) (position : Int) :
    clip size position = max 0 (min (size - 1) position) := by
  rw [clip]
  split <;> split <;> omega

theorem clip_range {size : Int} (positive : 1 ≤ size) (position : Int) :
    0 ≤ clip size position ∧ clip size position < size := by
  rw [clip_eq positive]
  omega

/-- The low byte of a movement as a signed number. -/
theorem toInt_low (low : UInt8) :
    low.toInt8.toInt = if low.toNat < 128 then (low.toNat : Int) else low.toNat - 256 := by
  rcases low with ⟨bits⟩
  revert bits
  decide

/-- For one axis: the position that follows from the low byte is the right one just if the
movement fits. -/
theorem clip_low_iff {size position : Int} (nonneg : 0 ≤ position) (below : position < size)
    (sign : Bool) (low : UInt8) :
    clip size (position + low.toInt8.toInt) =
        max 0 (min (size - 1) (position + Packet.movement sign low)) ↔
      Fits (Packet.movement sign low) size position := by
  have byte : low.toNat < 256 := low.toNat_lt
  rw [clip_eq (by omega), toInt_low, Packet.movement, Fits]
  cases sign <;> simp only [Bool.false_eq_true, if_false, if_true] <;> split <;> omega

/-- The other axis points upwards. -/
theorem clip_low_up_iff {size position : Int} (nonneg : 0 ≤ position) (below : position < size)
    (sign : Bool) (low : UInt8) :
    clip size (position + -low.toInt8.toInt) =
        max 0 (min (size - 1) (position - Packet.movement sign low)) ↔
      Fits (Packet.movement sign low) size (size - 1 - position) := by
  have mirrored := @clip_low_iff size (size - 1 - position) (by omega) (by omega) sign low
  rw [← mirrored, clip_eq (by omega), clip_eq (by omega)]
  constructor
  · intro same
    omega
  · intro same
    omega

/-! ## One packet -/

theorem marked_bit {flags : UInt8} (marked : flags &&& 0xC8 = 0x08) : flags &&& 0x08 ≠ 0 := by
  rcases flags with ⟨bits⟩
  revert bits
  decide

/-- What the handler has done after the three bytes of a packet. -/
theorem receive_packet {mouse : Mouse} (ready : mouse.Ready) (packet : Packet) :
    mouse.receive [packet] =
      { mouse with
        cycle := 0
        bytes := Function.update (Function.update (Function.update mouse.bytes 0
          packet.flags.toInt8) 1 packet.lowX.toInt8) 2 packet.lowY.toInt8
        x := clip mouse.screenW (mouse.x + packet.lowX.toInt8.toInt)
        y := clip mouse.screenH (mouse.y + -packet.lowY.toInt8.toInt) } := by
  rcases mouse with ⟨cycle, bytes, x, y, screenW, screenH⟩
  have boundary : cycle = 0 := ready.boundary
  subst boundary
  have bit := marked_bit packet.marked
  simp [receive, Packet.bytes, irqHandler, bit]

theorem receive_ready {mouse : Mouse} (ready : mouse.Ready) (packet : Packet) :
    (mouse.receive [packet]).Ready := by
  rcases ready with ⟨boundary, x_nonneg, x_lt, y_nonneg, y_lt⟩
  have column := @clip_range mouse.screenW (by omega) (mouse.x + packet.lowX.toInt8.toInt)
  have row := @clip_range mouse.screenH (by omega) (mouse.y + -packet.lowY.toInt8.toInt)
  rw [receive_packet ⟨boundary, x_nonneg, x_lt, y_nonneg, y_lt⟩]
  exact ⟨rfl, column.1, column.2, row.1, row.2⟩

/-- A packet moves the pointer by what it says just if it meets the condition. -/
theorem moved_iff {mouse : Mouse} (ready : mouse.Ready) (packet : Packet) :
    mouse.Moved packet (mouse.receive [packet]) ↔ mouse.Slow packet := by
  have column := @clip_low_iff mouse.screenW mouse.x ready.x_nonneg ready.x_lt
    (packet.flags &&& 0x10 ≠ 0) packet.lowX
  have row := @clip_low_up_iff mouse.screenH mouse.y ready.y_nonneg ready.y_lt
    (packet.flags &&& 0x20 ≠ 0) packet.lowY
  rw [receive_packet ready]
  constructor
  · intro moved
    exact ⟨column.mp moved.x, row.mp moved.y⟩
  · intro slow
    exact ⟨column.mpr slow.x, row.mpr slow.y, by simp [getButtons]⟩

/-! ## Many packets -/

theorem receive_append (mouse : Mouse) (first later : List Packet) :
    mouse.receive (first ++ later) = (mouse.receive first).receive later := by
  rw [receive, List.flatMap_append, List.foldl_append]
  rfl

/-- Between two packets the handler expects a first byte, and the pointer is on the screen. -/
theorem receive_all_ready (packets : List Packet) :
    ∀ {mouse : Mouse}, mouse.Ready → (mouse.receive packets).Ready := by
  induction packets with
  | nil => exact fun ready => ready
  | cons packet rest induction =>
      intro mouse ready
      rw [← List.singleton_append, receive_append]
      exact induction (receive_ready ready packet)

/-- For every screen and all packets: after each of them the pointer is where it should be,
seen from where it was before, just if each meets the condition where it comes in. -/
theorem receive_moved_iff {mouse : Mouse} (ready : mouse.Ready) (packets : List Packet) :
    (∀ sent packet later, packets = sent ++ packet :: later →
        (mouse.receive sent).Moved packet (mouse.receive (sent ++ [packet]))) ↔
      ∀ sent packet later, packets = sent ++ packet :: later →
        (mouse.receive sent).Slow packet := by
  have each : ∀ sent packet, (mouse.receive sent).Moved packet (mouse.receive (sent ++ [packet])) ↔
      (mouse.receive sent).Slow packet := by
    intro sent packet
    rw [receive_append]
    exact moved_iff (receive_all_ready sent ready) packet
  simp only [each]

/-- Two slow movements, one to the right and one up, with the first button held. -/
theorem receive_moved_iff_slow :
    let start := zero.init 640 480
    let right : Packet := ⟨0x09, 100, 0, by decide⟩
    let up : Packet := ⟨0x09, 0, 50, by decide⟩
    (start.receive [right]).Moved up (start.receive [right, up]) ∧
      ((start.receive [right, up]).x, (start.receive [right, up]).y) = (420, 190) := by
  intro start right up
  have ready : start.Ready := init_ready rfl (by decide) (by decide)
  have slow : ∀ sent packet later, [right, up] = sent ++ packet :: later →
      (start.receive sent).Slow packet := by
    intro sent packet later split
    have member : packet ∈ [right, up] := by
      rw [split]
      exact List.mem_append_right sent List.mem_cons_self
    cases member with
    | head => exact ⟨.inl (by decide), .inl (by decide)⟩
    | tail _ member =>
        cases List.mem_singleton.mp member
        exact ⟨.inl (by decide), .inl (by decide)⟩
  exact ⟨(receive_moved_iff ready [right, up]).mpr slow [right] up [] rfl, by decide +kernel⟩

/-- A movement of 200 places to the right moves the pointer 56 places to the left. -/
theorem receive_fast_moves_back :
    let start := zero.init 640 480
    let packet : Packet := ⟨0x08, 200, 0, by decide⟩
    packet.dx = 200 ∧ start.x = 320 ∧ (start.receive [packet]).x = 264 ∧
      ¬ start.Moved packet (start.receive [packet]) := by
  intro start packet
  have back : (start.receive [packet]).x = 264 := by decide +kernel
  refine ⟨by decide +kernel, by decide +kernel, back, ?_⟩
  intro moved
  have expected : max 0 (min (start.screenW - 1) (start.x + packet.dx)) = 520 := by
    decide +kernel
  have same := moved.x
  rw [back, expected] at same
  exact absurd same (by decide)

end Mouse

end ParanOS

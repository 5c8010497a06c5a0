import Wise1511.Lib.Mealy

/-!
# A byte-wide SPI bus with one slave

The slave is a Mealy machine on bytes: each exchanged byte shifts one byte in and one byte out.
Its state comes in two parts. The device part lasts; the phase says where in the current frame
the slave is, and falls back to `start` whenever chip select is released, so an access that is cut
off leaves no trace in the phase of the next frame.

The master is a program in `SpiM`: it selects, exchanges bytes one at a time, and deselects. The
bus keeps a record of every frame, both directions, which is what "the same bytes on the bus"
means below.

`SpiBus.frame` is the whole-frame view. A master program that exchanges the bytes `bs` between
one select and one deselect is `frame bs`, whatever the slave, and that is how the programs of a
driver are specified before any slave is named.

## Main definitions

* `SpiSlave`, `SpiBus`, `SpiM` — slave, bus state, master programs
* `SpiSlave.select`, `write`, `deselect` — the master's three operations
* `SpiBus.feed`, `SpiBus.frame` — a run of bytes inside a frame, and a whole frame
-/

/-- A slave: a byte machine whose state is a device and a phase within the frame. -/
structure SpiSlave (σ φ : Type) extends Mealy (σ × φ) UInt8 UInt8 where
  /-- The phase chip select leaves the slave in. -/
  start : φ

/-- The bus: the slave's two parts, the bytes of the frame under way, and the frames before it.
A byte is recorded as master-out, master-in. -/
structure SpiBus (σ φ : Type) where
  dev : σ
  phase : φ
  cur : List (UInt8 × UInt8)
  frames : List (List (UInt8 × UInt8))

/-- A master program. -/
abbrev SpiM (σ φ : Type) := StateM (SpiBus σ φ)

variable {σ φ α β : Type}

/-- Sequencing of master programs, as functions of the bus. -/
theorem SpiM.run_bind (x : SpiM σ φ α) (f : α → SpiM σ φ β) (b : SpiBus σ φ) :
    (x >>= f).run b = (f (x.run b).1).run (x.run b).2 := rfl

theorem SpiM.run_pure (a : α) (b : SpiBus σ φ) : (pure a : SpiM σ φ α).run b = (a, b) := rfl

namespace SpiBus

variable (S : SpiSlave σ φ) (b : SpiBus σ φ)

/-- The slave's answers to a list of bytes, from where it is now. -/
def replies (bytes : List UInt8) : List UInt8 := S.outputs (b.dev, b.phase) bytes

/-- Exchange a list of bytes inside the frame. -/
def feed (bytes : List UInt8) : SpiBus σ φ where
  dev := (S.after (b.dev, b.phase) bytes).1
  phase := (S.after (b.dev, b.phase) bytes).2
  cur := b.cur ++ bytes.zip (b.replies S bytes)
  frames := b.frames

/-- Begin a frame. -/
def fall : SpiBus σ φ := { b with phase := S.start, cur := [] }

/-- End the frame. -/
def rise : SpiBus σ φ := { b with phase := S.start, cur := [], frames := b.frames ++ [b.cur] }

/-- A whole frame. -/
def frame (bytes : List UInt8) : SpiBus σ φ := ((b.fall S).feed S bytes).rise S

/-- The slave's answers in a whole frame. -/
def frameReplies (bytes : List UInt8) : List UInt8 := (b.fall S).replies S bytes

@[simp] theorem length_replies (bytes : List UInt8) : (b.replies S bytes).length = bytes.length :=
  S.length_outputs _ _

@[simp] theorem feed_nil : b.feed S [] = b := by simp [feed]

theorem replies_append (xs ys : List UInt8) :
    b.replies S (xs ++ ys) = b.replies S xs ++ (b.feed S xs).replies S ys :=
  S.outputs_append _ xs ys

theorem feed_append (xs ys : List UInt8) : b.feed S (xs ++ ys) = (b.feed S xs).feed S ys := by
  have hzip : (xs ++ ys).zip (b.replies S (xs ++ ys))
      = xs.zip (b.replies S xs) ++ ys.zip ((b.feed S xs).replies S ys) := by
    rw [replies_append, List.zip_append (b.length_replies S xs).symm]
  simp only [feed, S.after_append, hzip, List.append_assoc]

theorem feed_cons (x : UInt8) (ys : List UInt8) :
    b.feed S (x :: ys) = (b.feed S [x]).feed S ys := b.feed_append S [x] ys

@[simp] theorem frame_dev (bytes : List UInt8) :
    (b.frame S bytes).dev = (S.after (b.dev, S.start) bytes).1 := rfl

theorem frameReplies_eq (bytes : List UInt8) :
    b.frameReplies S bytes = S.outputs (b.dev, S.start) bytes := rfl

@[simp] theorem length_frameReplies (bytes : List UInt8) :
    (b.frameReplies S bytes).length = bytes.length := length_replies S _ _

/-- The answers behind the first bytes of a frame are those given from there on. -/
theorem drop_frameReplies (xs ys : List UInt8) :
    (b.frameReplies S (xs ++ ys)).drop xs.length = ((b.fall S).feed S xs).replies S ys := by
  rw [frameReplies, replies_append, ← (b.fall S).length_replies S xs, List.drop_left]

/-- A frame adds its bytes, in both directions, to the record. -/
@[simp] theorem frame_frames (bytes : List UInt8) :
    (b.frame S bytes).frames = b.frames ++ [bytes.zip (b.frameReplies S bytes)] := by
  simp [frame, rise, feed, fall, frameReplies, replies]

end SpiBus

namespace SpiSlave

variable (S : SpiSlave σ φ)

/-- Pull chip select low. -/
def select : SpiM σ φ Unit := modify (SpiBus.fall S)

/-- Exchange one byte: the value shifted out by the slave is returned. -/
def write (out : UInt8) : SpiM σ φ UInt8 := fun b =>
  ((S.step (b.dev, b.phase) out).2, b.feed S [out])

/-- Release chip select. -/
def deselect : SpiM σ φ Unit := modify (SpiBus.rise S)

@[simp] theorem run_select (b : SpiBus σ φ) : S.select.run b = ((), b.fall S) := rfl

@[simp] theorem run_deselect (b : SpiBus σ φ) : S.deselect.run b = ((), b.rise S) := rfl

@[simp] theorem run_write (out : UInt8) (b : SpiBus σ φ) :
    (S.write out).run b = ((b.replies S [out]).headD 0, b.feed S [out]) := rfl

end SpiSlave

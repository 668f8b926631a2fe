import AvrEmulator.State

/-! Timer/Counter 0 (`timer0.cpp`): its registers, the prescaler accumulator
and the loop that drains it. -/

namespace AvrEmulator

@[ext]
structure Timer0 where
  tccr0a : Byte
  tccr0b : Byte
  tcnt0 : Byte
  ocr0a : Byte
  ocr0b : Byte
  timsk0 : Byte
  tifr0 : Byte
  prescalerAcc : Word
  deriving DecidableEq, Repr

def timer0Reset : Timer0 := ⟨0, 0, 0, 0, 0, 0, 0, 0⟩

namespace Timer0

/-- Bit positions shared by TIFR0 (TOV0, OCF0A, OCF0B) and TIMSK0 (TOIE0, OCIE0A, OCIE0B). -/
inductive Source where
  | overflow | compA | compB
  deriving DecidableEq, Repr

def Source.bit : Source → Nat
  | .overflow => 0 | .compA => 1 | .compB => 2

def prescalerDivider (t : Timer0) : Word :=
  match t.tccr0b &&& 0x07 with
  | 1 => 1
  | 2 => 8
  | 3 => 64
  | 4 => 256
  | 5 => 1024
  | _ => 0

/-- WGM02 from TCCR0B[3], WGM01 and WGM00 from TCCR0A[1:0]. -/
def wgm (t : Timer0) : Byte :=
  (((t.tccr0b >>> 3) &&& 1) <<< 2) ||| (((t.tccr0a >>> 1) &&& 1) <<< 1) ||| (t.tccr0a &&& 1)

def wgmCtc : Byte := 2

def setFlag (t : Timer0) (s : Source) : Timer0 :=
  { t with tifr0 := t.tifr0 ||| ((1 : Byte) <<< s.bit) }

/-- The counter's part of one prescaler tick. `next` is computed in 16 bits. -/
def count (mode : Byte) (top : Word) (t : Timer0) : Timer0 :=
  let next := t.tcnt0.setWidth 16 + 1
  if next > top then
    let t := { t with tcnt0 := 0 }
    if mode ≠ wgmCtc then t.setFlag .overflow else t
  else
    { t with tcnt0 := next.setWidth 8 }

/-- One turn of the drain loop. Compare matches look at the previous count. -/
def tickOnce (div : Word) (mode : Byte) (top : Word) (t : Timer0) : Timer0 :=
  let prev := t.tcnt0
  let t := count mode top { t with prescalerAcc := t.prescalerAcc - div }
  let t := if prev = t.ocr0a then t.setFlag .compA else t
  if prev = t.ocr0b then t.setFlag .compB else t

/-- `while (prescaler_acc >= div)`. The first argument bounds the turns. -/
def drain (div : Word) (mode : Byte) (top : Word) : Nat → Timer0 → Timer0
  | 0, t => t
  | fuel + 1, t =>
    if t.prescalerAcc ≥ div then drain div mode top fuel (tickOnce div mode top t) else t

/-- `top`: OCR0A in CTC mode, 0xFF in every other mode. -/
def top (t : Timer0) : Word := if t.wgm = wgmCtc then t.ocr0a.setWidth 16 else 0xFF

/-- Every turn drains at least one cycle, so the accumulator itself bounds the turns. -/
def timer0Tick (t : Timer0) (cycles : Word) : Timer0 :=
  let div := t.prescalerDivider
  if div = 0 then t
  else
    let mode := t.wgm
    let t := { t with prescalerAcc := t.prescalerAcc + cycles }
    drain div mode t.top t.prescalerAcc.toNat t

/-- `timer0Read`: `none` is the result `false`. -/
def timer0Read (t : Timer0) (ioAddr : Byte) : Option Byte :=
  match ioAddr with
  | 0x24 => some t.tccr0a
  | 0x25 => some t.tccr0b
  | 0x26 => some t.tcnt0
  | 0x27 => some t.ocr0a
  | 0x28 => some t.ocr0b
  | 0x4E => some t.timsk0
  | 0x15 => some t.tifr0
  | _ => none

/-- `timer0Write`: `none` is the result `false`. TIFR0 is write-1-to-clear. -/
def timer0Write (t : Timer0) (ioAddr value : Byte) : Option Timer0 :=
  match ioAddr with
  | 0x24 => some { t with tccr0a := value }
  | 0x25 => some { t with tccr0b := value }
  | 0x26 => some { t with tcnt0 := value, prescalerAcc := 0 }
  | 0x27 => some { t with ocr0a := value }
  | 0x28 => some { t with ocr0b := value }
  | 0x4E => some { t with timsk0 := value }
  | 0x15 => some { t with tifr0 := t.tifr0 &&& ~~~value }
  | _ => none

def enabled (t : Timer0) (s : Source) : Bool := t.timsk0 &&& ((1 : Byte) <<< s.bit) ≠ 0

def flagged (t : Timer0) (s : Source) : Bool := t.tifr0 &&& ((1 : Byte) <<< s.bit) ≠ 0

/-- `timer0OverflowPending`, `timer0CompAPending` and `timer0CompBPending`. -/
def isPending (t : Timer0) (s : Source) : Bool := t.enabled s && t.flagged s

/-- `timer0AckOverflow`, `timer0AckCompA` and `timer0AckCompB`. -/
def ack (t : Timer0) (s : Source) : Timer0 :=
  { t with tifr0 := t.tifr0 &&& ~~~((1 : Byte) <<< s.bit) }

def timer0OverflowPending (t : Timer0) : Bool := t.isPending .overflow
def timer0CompAPending (t : Timer0) : Bool := t.isPending .compA
def timer0CompBPending (t : Timer0) : Bool := t.isPending .compB
def timer0AckOverflow (t : Timer0) : Timer0 := t.ack .overflow
def timer0AckCompA (t : Timer0) : Timer0 := t.ack .compA
def timer0AckCompB (t : Timer0) : Timer0 := t.ack .compB

end Timer0

end AvrEmulator

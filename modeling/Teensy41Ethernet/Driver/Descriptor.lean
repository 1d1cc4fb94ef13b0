import Mathlib.Tactic
import Teensy41Ethernet.Lib.Word

/-!
# Buffer descriptors of the ENET controller

The driver and the DMA engine of the Ethernet controller share two rings of buffer
descriptors.  The status word of a descriptor says who owns it: `kEnetRxBdEmpty` gives a
receive descriptor to the DMA and `kEnetTxBdReady` a transmit descriptor.  The wrap bit
marks the last descriptor of a ring; both sides go back to the first one after it.

The drivers of the two boards, `lwip_t41.c` and `lwip_k6x.c`, have the same code with
different sizes.
-/

namespace Teensy41Ethernet.Driver

open Lib

/-! ### The bits of `enet_rx_bd_control_status_t` that are used -/

def kEnetRxBdEmpty : BitVec 16 := 0x8000
def kEnetRxBdWrap : BitVec 16 := 0x2000
def kEnetRxBdLast : BitVec 16 := 0x0800
def kEnetRxBdLengthViolation : BitVec 16 := 0x0020
def kEnetRxBdNoOctet : BitVec 16 := 0x0010
def kEnetRxBdCrc : BitVec 16 := 0x0004
def kEnetRxBdOverRun : BitVec 16 := 0x0002
def kEnetRxBdTrunc : BitVec 16 := 0x0001

/-! ### Those of `enet_tx_bd_control_status_t` and of the second extension word -/

def kEnetTxBdReady : BitVec 16 := 0x8000
def kEnetTxBdWrap : BitVec 16 := 0x2000
def kEnetTxBdLast : BitVec 16 := 0x0800
def kEnetTxBdTransmitCrc : BitVec 16 := 0x0400

def kEnetTxBdTxInterrupt : BitVec 16 := 0x4000
def kEnetTxBdProtChecksum : BitVec 16 := 0x1000
def kEnetTxBdIpHdrChecksum : BitVec 16 := 0x0800

/-! ### Sizes -/

/-- `RX_SIZE`, `TX_SIZE` and `BFSIZE` of a board. -/
structure Board where
  rxSize : ℕ
  txSize : ℕ
  bfsize : ℕ
  rx_pos : 0 < rxSize
  tx_pos : 0 < txSize
  bf_pos : 0 < bfsize

/-- The sizes in `lwip_t41.c`. -/
def t41 : Board := ⟨5, 5, 1536, by decide, by decide, by decide⟩

/-- The sizes in `lwip_k6x.c`. -/
def k6x : Board := ⟨5, 5, 1600, by decide, by decide, by decide⟩

/-! ### Status updates -/

/-- The status with which `t41_low_level_init` and `t41_low_level_input` hand a receive
descriptor to the DMA: only the wrap bit survives. -/
def rxReleased (status : BitVec 16) : BitVec 16 := (status &&& kEnetRxBdWrap) ||| kEnetRxBdEmpty

/-- The status with which `t41_low_level_output` hands a transmit descriptor to the DMA. -/
def txPublished (status : BitVec 16) : BitVec 16 :=
  (status &&& kEnetTxBdWrap) ||| kEnetTxBdTransmitCrc ||| kEnetTxBdLast ||| kEnetTxBdReady

@[simp] lemma hasFlag_rxReleased_empty (s : BitVec 16) :
    hasFlag (rxReleased s) kEnetRxBdEmpty = true := by
  rw [rxReleased, hasFlag_or, show hasFlag kEnetRxBdEmpty kEnetRxBdEmpty = true by decide,
    Bool.or_true]

@[simp] lemma hasFlag_rxReleased_wrap (s : BitVec 16) :
    hasFlag (rxReleased s) kEnetRxBdWrap = hasFlag s kEnetRxBdWrap := by
  rw [rxReleased, hasFlag_or, hasFlag_and, BitVec.and_self,
    show hasFlag kEnetRxBdEmpty kEnetRxBdWrap = false by decide, Bool.or_false]

@[simp] lemma hasFlag_txPublished_ready (s : BitVec 16) :
    hasFlag (txPublished s) kEnetTxBdReady = true := by
  rw [txPublished, hasFlag_or, show hasFlag kEnetTxBdReady kEnetTxBdReady = true by decide,
    Bool.or_true]

@[simp] lemma hasFlag_txPublished_wrap (s : BitVec 16) :
    hasFlag (txPublished s) kEnetTxBdWrap = hasFlag s kEnetTxBdWrap := by
  simp only [txPublished, hasFlag_or, hasFlag_and, BitVec.and_self,
    show hasFlag kEnetTxBdTransmitCrc kEnetTxBdWrap = false by decide,
    show hasFlag kEnetTxBdLast kEnetTxBdWrap = false by decide,
    show hasFlag kEnetTxBdReady kEnetTxBdWrap = false by decide, Bool.or_false]

end Teensy41Ethernet.Driver

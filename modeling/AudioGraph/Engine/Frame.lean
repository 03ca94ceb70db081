import AudioGraph.Foundation.Overlay
import Mathlib.Algebra.Notation.Defs

namespace AudioGraph

open Overlay

-- An `f32` as its IEEE-754 bit pattern: the engine copies samples and writes `0.0`, nothing else.
structure F32 where
  bits : UInt32
deriving DecidableEq, Repr

instance : Zero F32 := ⟨⟨0⟩⟩

structure AudioFrame where
  channels : UInt16
  sampleRate : UInt32
  samples : List F32
deriving DecidableEq, Repr

inductive PortDirection where
  | input
  | output
deriving DecidableEq, Repr

inductive SampleFormat where
  | f32
  | f64
  | i16
  | i32
deriving DecidableEq, Repr

structure PortDescriptor where
  direction : PortDirection
  channels : UInt16
  sampleFormat : SampleFormat
deriving DecidableEq, Repr

-- What the engine takes from the core crate and only passes along or calls.
class AudioCore where
  ProcessContext : Type
  silence : (channels : UInt16) → (numFrames : Nat) → (sampleRate : UInt32) → AudioFrame
  silence_channels : ∀ c n r, (silence c n r).channels = c
  silence_sampleRate : ∀ c n r, (silence c n r).sampleRate = r
  silence_samples : ∀ c n r, (silence c n r).samples = List.replicate (c.toNat * n) 0

export AudioCore (ProcessContext silence)

namespace PlainCore

scoped instance : AudioCore where
  ProcessContext := Unit
  silence c n r := ⟨c, r, List.replicate (c.toNat * n) 0⟩
  silence_channels _ _ _ := rfl
  silence_sampleRate _ _ _ := rfl
  silence_samples _ _ _ := rfl

end PlainCore

namespace AudioFrame

def len (f : AudioFrame) : Nat := f.samples.length

def copyFrom (dst src : AudioFrame) : AudioFrame :=
  let copyLen := min src.samples.length dst.samples.length
  { channels := src.channels
    sampleRate := src.sampleRate
    samples := src.samples.take copyLen ++ dst.samples.drop copyLen }

def silenced (f : AudioFrame) : AudioFrame :=
  { f with samples := f.samples.map fun _ => 0 }

@[simp] theorem copyFrom_channels (dst src : AudioFrame) :
    (dst.copyFrom src).channels = src.channels := rfl

@[simp] theorem copyFrom_sampleRate (dst src : AudioFrame) :
    (dst.copyFrom src).sampleRate = src.sampleRate := rfl

theorem copyFrom_overlay (dst src : AudioFrame) :
    dst.copyFrom src = ⟨src.channels, src.sampleRate, overlay dst.samples src.samples⟩ := rfl

@[simp] theorem copyFrom_len (dst src : AudioFrame) : (dst.copyFrom src).len = dst.len :=
  overlay_length dst.samples src.samples

theorem copyFrom_of_len_eq {dst src : AudioFrame} (h : src.len = dst.len) :
    dst.copyFrom src = src := by
  simp only [len] at h
  rw [copyFrom_overlay, overlay_eq, ← h, List.take_length, h, List.drop_length, List.append_nil]

@[simp] theorem silenced_len (f : AudioFrame) : f.silenced.len = f.len := by
  simp [silenced, len]

theorem silenced_samples (f : AudioFrame) : ∀ x ∈ f.silenced.samples, x = 0 := by
  intro x hx
  obtain ⟨_, _, rfl⟩ := List.mem_map.mp hx
  rfl

end AudioFrame

theorem silence_len [AudioCore] (c : UInt16) (n : Nat) (r : UInt32) :
    (silence c n r).len = c.toNat * n := by
  simp [AudioFrame.len, AudioCore.silence_samples]

end AudioGraph

import Mathlib

/-!
# Double-precision arithmetic, as an interface

Code that weighs alternatives in `f64` is modelled over any type with the operations it uses.
Nothing is assumed about them: a result about such code holds whatever the rounding does.  The
rational instance exists so that concrete runs can be evaluated; it is exact where `f64` is.
-/

/-- The `f64` operations: conversion of an unsigned integer, a decimal literal `m · 10⁻ᵉ`, the
four operations, comparison, square root and rounding to an integer. -/
class Float64 (F : Type) extends Add F, Sub F, Mul F, Div F where
  ofNat : ℕ → F
  decimal : ℕ → ℕ → F
  lt : F → F → Bool
  sqrt : F → F
  floor : F → F
  ceil : F → F

instance : Float64 ℚ where
  ofNat n := n
  decimal m e := m / 10 ^ e
  lt a b := decide (a < b)
  sqrt a := (Nat.sqrt a.num.toNat : ℚ) / (Nat.sqrt a.den : ℚ)
  floor a := (a.floor : ℚ)
  ceil a := (a.ceil : ℚ)

import Mathlib.Logic.Basic

/-!
# Codecs for bytes

A codec writes a value in front of whatever follows it and reads it back from there.

- `byte` and `char` are codecs of fixed width.
- `pair` and `list` put codecs in a row; a list has a mark before each element and
  another one at its end.
- `decode_put`: what was written alone is read back.
-/

namespace M8flow.Lib

/-- How values are written, with the reader that finds them again. -/
structure Codec (α : Type) where
  put : α → List UInt8
  get : List UInt8 → Option (α × List UInt8)
  get_put : ∀ a rest, get (put a ++ rest) = some (a, rest)

namespace Codec

variable {α β : Type}

/-- One byte. -/
def byte : Codec UInt8 where
  put b := [b]
  get
    | b :: rest => some (b, rest)
    | [] => none
  get_put _ _ := rfl

/-- A code point in three bytes, the highest first. -/
def char : Codec Char where
  put c := [UInt8.ofNat (c.toNat / 65536), UInt8.ofNat (c.toNat / 256), UInt8.ofNat c.toNat]
  get
    | high :: middle :: low :: rest =>
        some (Char.ofNat (high.toNat * 65536 + middle.toNat * 256 + low.toNat), rest)
    | _ => none
  get_put c rest := by
    have hsmall : c.toNat < 1114112 := by
      rcases c.valid with hlow | hhigh
      · exact Nat.lt_trans hlow (by decide)
      · exact hhigh.2
    have hsum : c.toNat / 65536 % 256 * 65536 + c.toNat / 256 % 256 * 256 + c.toNat % 256 =
        c.toNat := by omega
    show some (Char.ofNat (c.toNat / 65536 % 256 * 65536 + c.toNat / 256 % 256 * 256 +
      c.toNat % 256), rest) = some (c, rest)
    rw [hsum, Char.ofNat_toNat]

/-- One value after the other. -/
def pair (x : Codec α) (y : Codec β) : Codec (α × β) where
  put ab := x.put ab.1 ++ y.put ab.2
  get bytes :=
    match x.get bytes with
    | none => none
    | some (a, rest) => (y.get rest).map fun found => ((a, found.1), found.2)
  get_put ab rest := by
    rw [List.append_assoc, x.get_put]
    dsimp only
    rw [y.get_put]
    rfl

/-! ## Lists -/

/-- The elements, each after a one, and a zero. -/
def putList (x : Codec α) : List α → List UInt8
  | [] => [0]
  | a :: as => 1 :: (x.put a ++ putList x as)

/-- Read elements up to the zero, at most as many as the fuel allows. -/
def getList (x : Codec α) : Nat → List UInt8 → Option (List α × List UInt8)
  | 0, _ => none
  | _ + 1, [] => none
  | fuel + 1, mark :: bytes =>
      if mark = 0 then some ([], bytes)
      else
        match x.get bytes with
        | none => none
        | some (a, rest) => (getList x fuel rest).map fun found => (a :: found.1, found.2)

theorem length_lt_putList (x : Codec α) (as : List α) : as.length < (putList x as).length := by
  induction as with
  | nil => exact Nat.zero_lt_one
  | cons a as ih =>
      have hlength : (putList x (a :: as)).length =
          (x.put a).length + (putList x as).length + 1 := by
        rw [putList, List.length_cons, List.length_append]
      rw [hlength, List.length_cons]
      omega

/-- Any fuel above the number of elements is enough. -/
theorem getList_putList (x : Codec α) (as : List α) (rest : List UInt8) :
    ∀ fuel, as.length < fuel → getList x fuel (putList x as ++ rest) = some (as, rest) := by
  induction as with
  | nil =>
      intro fuel hfuel
      cases fuel with
      | zero => exact absurd hfuel (Nat.not_lt_zero _)
      | succ fuel => rfl
  | cons a as ih =>
      intro fuel hfuel
      cases fuel with
      | zero => exact absurd hfuel (Nat.not_lt_zero _)
      | succ fuel =>
          have hone : (1 : UInt8) ≠ 0 := by decide
          rw [putList, List.cons_append, List.append_assoc, getList, if_neg hone, x.get_put]
          dsimp only
          rw [ih fuel (Nat.lt_of_succ_lt_succ hfuel)]
          rfl

/-- Any number of values. -/
def list (x : Codec α) : Codec (List α) where
  put := putList x
  get bytes := getList x bytes.length bytes
  get_put as rest := by
    refine getList_putList x as rest _ ?_
    rw [List.length_append]
    exact Nat.lt_add_right _ (length_lt_putList x as)

/-! ## A value alone -/

/-- Read one value and nothing after it. -/
def decode (x : Codec α) (bytes : List UInt8) : Option α :=
  match x.get bytes with
  | some (a, []) => some a
  | _ => none

theorem decode_put (x : Codec α) (a : α) : x.decode (x.put a) = some a := by
  have hget := x.get_put a []
  rw [List.append_nil] at hget
  unfold decode
  rw [hget]

end Codec

end M8flow.Lib

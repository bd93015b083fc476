import Mathlib.Algebra.Order.Ring.Nat
import Mathlib.Tactic.Common
import Mathlib.Tactic.NormNum

/-!
# Fixed-width integers in byte strings

The encoding of a natural number as exactly `w` bytes in either byte order, and readers that
consume a byte string from the front.

* `toBytes o w n` writes the low `w` bytes of `n`; `ofBytes o bs` is the number that `bs` spells.
* `Reader ε α` consumes bytes and returns a value, or fails with an error of type `ε`.
* `readBytes_append`, `readNat_toBytes`: a reader of `w` bytes takes back what was written,
  whatever follows; a number that does not fit comes back modulo `256 ^ w`.
* `Reader.Avoids r e`: the reader `r` never fails with the error `e`.
-/

namespace Bytes

/-- Least significant byte first, or most significant byte first. -/
inductive Order where
  | little
  | big
  deriving DecidableEq

/-- The `w` low bytes of `n`, least significant first. -/
def toLittle : ℕ → ℕ → List UInt8
  | 0, _ => []
  | w + 1, n => UInt8.ofNat (n % 256) :: toLittle w (n / 256)

/-- The number with the given bytes, least significant first. -/
def ofLittle : List UInt8 → ℕ
  | [] => 0
  | b :: bs => b.toNat + 256 * ofLittle bs

/-- The `w` low bytes of `n` in byte order `o`. -/
def toBytes (o : Order) (w n : ℕ) : List UInt8 :=
  match o with
  | .little => toLittle w n
  | .big => (toLittle w n).reverse

/-- The number with the given bytes in byte order `o`. -/
def ofBytes (o : Order) (bs : List UInt8) : ℕ :=
  match o with
  | .little => ofLittle bs
  | .big => ofLittle bs.reverse

@[simp]
theorem length_toLittle (w n : ℕ) : (toLittle w n).length = w := by
  induction w generalizing n with
  | zero => rfl
  | succ w ih => simp [toLittle, ih]

@[simp]
theorem length_toBytes (o : Order) (w n : ℕ) : (toBytes o w n).length = w := by
  cases o <;> simp [toBytes]

/-- Writing `w` bytes keeps the number modulo `256 ^ w`. -/
theorem ofLittle_toLittle (w n : ℕ) : ofLittle (toLittle w n) = n % 256 ^ w := by
  induction w generalizing n with
  | zero => simp [toLittle, ofLittle, Nat.mod_one]
  | succ w ih =>
    have hbyte : (UInt8.ofNat (n % 256)).toNat = n % 256 := by
      rw [UInt8.toNat_ofNat']
      exact Nat.mod_eq_of_lt (Nat.mod_lt n (by norm_num))
    rw [toLittle, ofLittle, ih, hbyte, pow_succ', Nat.mod_mul]

/-- The low bytes of a number are followed by those of the rest. -/
theorem toLittle_add (v w n : ℕ) :
    toLittle (v + w) n = toLittle v n ++ toLittle w (n / 256 ^ v) := by
  induction v generalizing n with
  | zero => rw [Nat.zero_add, Nat.pow_zero, Nat.div_one, toLittle, List.nil_append]
  | succ v ih =>
    rw [Nat.add_right_comm, toLittle, ih, toLittle, List.cons_append, Nat.div_div_eq_div_mul,
      Nat.pow_succ, Nat.mul_comm 256]

/-- The bytes of the number that they spell. -/
theorem toLittle_ofLittle (bs : List UInt8) : toLittle bs.length (ofLittle bs) = bs := by
  induction bs with
  | nil => rfl
  | cons b bs ih =>
    have hb : b.toNat < 256 := b.toNat_lt
    have hmod : (b.toNat + 256 * ofLittle bs) % 256 = b.toNat := by omega
    have hdiv : (b.toNat + 256 * ofLittle bs) / 256 = ofLittle bs := by omega
    rw [List.length_cons, toLittle, ofLittle, hmod, hdiv, ih, UInt8.ofNat_toNat]

theorem ofBytes_toBytes_mod (o : Order) (w n : ℕ) :
    ofBytes o (toBytes o w n) = n % 256 ^ w := by
  cases o <;> simp [ofBytes, toBytes, ofLittle_toLittle]

variable {o : Order} {w : ℕ}

theorem ofBytes_toBytes {n : ℕ} (h : n < 256 ^ w) :
    ofBytes o (toBytes o w n) = n := by
  rw [ofBytes_toBytes_mod, Nat.mod_eq_of_lt h]

theorem ofLittle_lt (bs : List UInt8) : ofLittle bs < 256 ^ bs.length := by
  induction bs with
  | nil => exact Nat.one_pos
  | cons b bs ih =>
    have hb := b.toNat_lt
    rw [ofLittle, List.length_cons, Nat.pow_succ]
    omega

theorem ofBytes_lt (o : Order) (bs : List UInt8) : ofBytes o bs < 256 ^ bs.length := by
  cases o with
  | little => exact ofLittle_lt bs
  | big =>
    have hlt := ofLittle_lt bs.reverse
    rwa [List.length_reverse] at hlt

/-- Fixed-width encodings of two numbers in range are equal only if the numbers are. -/
theorem toBytes_injective {n m : ℕ} (hn : n < 256 ^ w) (hm : m < 256 ^ w)
    (h : toBytes o w n = toBytes o w m) : n = m := by
  rw [← ofBytes_toBytes (o := o) hn, h, ofBytes_toBytes hm]

theorem toBytes_ofBytes (o : Order) (bs : List UInt8) :
    toBytes o bs.length (ofBytes o bs) = bs := by
  cases o with
  | little => exact toLittle_ofLittle bs
  | big =>
    have h := toLittle_ofLittle bs.reverse
    rw [List.length_reverse] at h
    rw [toBytes, ofBytes, h, List.reverse_reverse]

variable {bs : List UInt8}

/-- A byte string is the encoding of a number if it spells the number, up to what does not fit. -/
theorem eq_toBytes_iff_ofBytes {n : ℕ} (h : bs.length = w) :
    bs = toBytes o w n ↔ ofBytes o bs = n % 256 ^ w := by
  subst h
  constructor
  · intro heq
    rw [heq, length_toBytes, ofBytes_toBytes_mod]
  · intro heq
    have hback := toBytes_ofBytes o (toBytes o bs.length n)
    rwa [length_toBytes, ofBytes_toBytes_mod, ← heq, toBytes_ofBytes] at hback

/-! ## Readers -/

/-- A computation that consumes a byte string from the front and can fail with an `ε`. -/
abbrev Reader (ε : Type) := StateT (List UInt8) (Except ε)

variable {ε α β : Type}

/-- A sequence goes on with the value of a first step that succeeds. -/
theorem ok_bind (a : α) (f : α → Except ε β) : (Except.ok a >>= f) = f a := rfl

/-- A sequence that succeeds went through a value of its first step. -/
theorem bind_eq_ok {x : Except ε α} {f : α → Except ε β} {b : β} (h : (x >>= f) = .ok b) :
    ∃ a, x = .ok a ∧ f a = .ok b := by
  cases x with
  | error e => cases h
  | ok a => exact ⟨a, rfl, h⟩

variable {rest : List UInt8}

/-- When the first reader succeeds, a sequence goes on with its value and the bytes it left. -/
theorem Reader.bind_ok {r : Reader ε α} {f : α → Reader ε β} {a : α} (h : r bs = .ok (a, rest)) :
    (r >>= f) bs = f a rest := by
  change (r bs >>= fun p => f p.1 p.2) = _
  rw [h]
  rfl

/-- When the first reader fails, so does the sequence. -/
theorem Reader.bind_error {r : Reader ε α} {f : α → Reader ε β} {e : ε} (h : r bs = .error e) :
    (r >>= f) bs = .error e := by
  change (r bs >>= fun p => f p.1 p.2) = _
  rw [h]
  rfl

/-- A sequence that succeeds went through a value of its first reader. -/
theorem Reader.bind_eq_ok {r : Reader ε α} {f : α → Reader ε β} {b : β}
    (h : (r >>= f) bs = .ok (b, rest)) :
    ∃ a bs', r bs = .ok (a, bs') ∧ f a bs' = .ok (b, rest) := by
  cases hr : r bs with
  | error e => rw [Reader.bind_error hr] at h; cases h
  | ok p =>
    obtain ⟨a, bs'⟩ := p
    rw [Reader.bind_ok hr] at h
    exact ⟨a, bs', rfl, h⟩

theorem Reader.pure_eq_ok {a b : α} (h : (pure a : Reader ε α) bs = .ok (b, rest)) :
    b = a ∧ rest = bs := by
  obtain ⟨rfl, rfl⟩ := Prod.mk.inj (Except.ok.inj h)
  exact ⟨rfl, rfl⟩

/-- Fail with `e` if `c` holds. -/
def Reader.failIf (c : Prop) [Decidable c] (e : ε) : Reader ε Unit :=
  if c then throw e else pure ()

theorem Reader.failIf_false {c : Prop} [Decidable c] (h : ¬ c) (e : ε) (bs : List UInt8) :
    Reader.failIf c e bs = .ok ((), bs) := by
  rw [Reader.failIf, if_neg h]
  rfl

theorem Reader.failIf_eq_ok {c : Prop} [Decidable c] {e : ε} {u : Unit}
    (h : Reader.failIf c e bs = .ok (u, rest)) : ¬ c ∧ rest = bs := by
  by_cases hc : c
  · rw [Reader.failIf, if_pos hc] at h
    cases h
  · rw [Reader.failIf_false hc] at h
    cases h
    exact ⟨hc, rfl⟩

/-- Read an optional field, which is `default` when it is absent. -/
def Reader.optional (present : Bool) (r : Reader ε α) (default : α) : Reader ε α :=
  if present then r else pure default

@[simp]
theorem Reader.optional_true (r : Reader ε α) (default : α) :
    Reader.optional true r default = r := rfl

@[simp]
theorem Reader.optional_false (r : Reader ε α) (default : α) (bs : List UInt8) :
    Reader.optional false r default bs = .ok (default, bs) := rfl

variable {xs : List UInt8}

/-- A field that is written if it is present is read back, or its default. -/
theorem Reader.optional_append {present : Bool} {r : Reader ε α} {default a : α}
    (hread : present = true → ∀ rest, r (xs ++ rest) = .ok (a, rest)) (rest : List UInt8) :
    Reader.optional present r default ((if present then xs else []) ++ rest) =
      .ok (if present then a else default, rest) := by
  cases present with
  | false => exact optional_false r default rest
  | true =>
    rw [optional_true]
    exact hread rfl rest

/-- A choice that succeeds went through one of its readers. -/
theorem Reader.ite_eq_ok {c : Prop} [Decidable c] {r r' : Reader ε α} {p : α × List UInt8}
    (h : (if c then r else r') bs = .ok p) :
    r bs = .ok p ∨ r' bs = .ok p := by
  split at h
  · exact .inl h
  · exact .inr h

/-- Read with a reader whose errors are of another type. -/
def Reader.mapError {ε' : Type} (f : ε → ε') (r : Reader ε α) : Reader ε' α :=
  fun bs => (r bs).mapError f

theorem Reader.mapError_eq_ok {ε' : Type} {f : ε → ε'} {r : Reader ε α} {a : α} :
    Reader.mapError f r bs = .ok (a, rest) ↔ r bs = .ok (a, rest) := by
  unfold Reader.mapError
  cases r bs <;> simp [Except.mapError]

/-- Consume one byte. -/
def readByte (eof : ε) : Reader ε UInt8
  | [] => .error eof
  | b :: bs => .ok (b, bs)

/-- Consume `w` bytes. -/
def readBytes (eof : ε) (w : ℕ) : Reader ε (List UInt8) := fun bs =>
  if w ≤ bs.length then .ok (bs.take w, bs.drop w) else .error eof

/-- Consume exactly `w` bytes, with another error if there are some bytes but too few. -/
def readFull (eof unexpectedEOF : ε) (w : ℕ) : Reader ε (List UInt8) := fun bs =>
  if w ≤ bs.length then .ok (bs.take w, bs.drop w)
  else .error (if bs = [] then eof else unexpectedEOF)

/-- Consume a `w`-byte number. -/
def readNat (eof : ε) (o : Order) (w : ℕ) : Reader ε ℕ := do
  let bs ← readBytes eof w
  return ofBytes o bs

@[simp]
theorem readByte_cons (eof : ε) (b : UInt8) (bs : List UInt8) :
    readByte eof (b :: bs) = .ok (b, bs) := rfl

theorem readBytes_append (eof : ε) (h : xs.length = w) (rest : List UInt8) :
    readBytes eof w (xs ++ rest) = .ok (xs, rest) := by
  subst h
  simp [readBytes]

theorem readFull_append (eof unexpectedEOF : ε) (h : xs.length = w) (rest : List UInt8) :
    readFull eof unexpectedEOF w (xs ++ rest) = .ok (xs, rest) := by
  subst h
  simp [readFull]

theorem readFull_eq_ok {eof unexpectedEOF : ε}
    (h : readFull eof unexpectedEOF w bs = .ok (xs, rest)) :
    w ≤ bs.length ∧ xs = bs.take w ∧ rest = bs.drop w := by
  unfold readFull at h
  split_ifs at h with hw
  obtain ⟨rfl, rfl⟩ := Prod.mk.inj (Except.ok.inj h)
  exact ⟨hw, rfl, rfl⟩

theorem readNat_toBytes_mod (eof : ε) (o : Order) (w n : ℕ) (rest : List UInt8) :
    readNat eof o w (toBytes o w n ++ rest) = .ok (n % 256 ^ w, rest) := by
  rw [readNat, Reader.bind_ok (readBytes_append eof (length_toBytes o w n) rest),
    ofBytes_toBytes_mod]
  rfl

theorem readNat_toBytes (eof : ε) {n : ℕ} (h : n < 256 ^ w) (rest : List UInt8) :
    readNat eof o w (toBytes o w n ++ rest) = .ok (n, rest) := by
  rw [readNat_toBytes_mod, Nat.mod_eq_of_lt h]

theorem readNat_lt {eof : ε} {n : ℕ} (h : readNat eof o w bs = .ok (n, rest)) : n < 256 ^ w := by
  obtain ⟨xs, bs', hxs, h⟩ := Reader.bind_eq_ok h
  obtain ⟨rfl, -⟩ := Reader.pure_eq_ok h
  unfold readBytes at hxs
  split_ifs at hxs with hw
  obtain ⟨rfl, -⟩ := Prod.mk.inj (Except.ok.inj hxs)
  have hlt := ofBytes_lt o (bs.take w)
  rwa [List.length_take_of_le hw] at hlt

/-! ## Errors that cannot occur -/

/-- The reader never fails with the error `e`. -/
def Reader.Avoids (r : Reader ε α) (e : ε) : Prop := ∀ bs, r bs ≠ .error e

section Avoids

variable {r : Reader ε α} {f : α → Reader ε β} {e e' : ε}

/-- A sequence fails in its first reader or in what follows. -/
theorem Reader.bind_eq_error {bs : List UInt8} (h : (r >>= f) bs = .error e) :
    r bs = .error e ∨ ∃ a rest, r bs = .ok (a, rest) ∧ f a rest = .error e := by
  cases hr : r bs with
  | error e' =>
    rw [Reader.bind_error hr] at h
    exact .inl (congrArg Except.error (Except.error.inj h))
  | ok p =>
    rw [Reader.bind_ok hr] at h
    exact .inr ⟨p.1, p.2, rfl, h⟩

/-- What follows only has to avoid the error for the values that the first reader gives. -/
theorem Reader.Avoids.bind (hr : r.Avoids e)
    (hf : ∀ a bs rest, r bs = .ok (a, rest) → f a rest ≠ .error e) : (r >>= f).Avoids e := by
  intro bs h
  rcases Reader.bind_eq_error h with h | ⟨a, rest, ha, h⟩
  · exact hr bs h
  · exact hf a bs rest ha h

theorem Reader.avoids_pure (a : α) (e : ε) : (pure a : Reader ε α).Avoids e := by
  intro bs h
  cases h

theorem Reader.avoids_failIf {c : Prop} [Decidable c] (hne : e' ≠ e) :
    (Reader.failIf c e').Avoids e := by
  intro bs h
  unfold Reader.failIf at h
  split_ifs at h
  · exact hne (Except.error.inj h)
  · cases h

theorem Reader.Avoids.optional {present : Bool} {default : α} (hr : r.Avoids e) :
    (Reader.optional present r default).Avoids e := by
  cases present with
  | false => exact Reader.avoids_pure default e
  | true => exact hr

theorem avoids_readByte (hne : e' ≠ e) : (readByte e').Avoids e := by
  intro bs h
  cases bs with
  | nil => exact hne (Except.error.inj h)
  | cons b bs => cases h

theorem avoids_readNat {o : Order} {w : ℕ} (hne : e' ≠ e) : (readNat e' o w).Avoids e := by
  refine Reader.Avoids.bind (fun bs h => ?_) fun a _ rest _ => Reader.avoids_pure _ e rest
  unfold readBytes at h
  split_ifs at h
  exact hne (Except.error.inj h)

end Avoids

end Bytes

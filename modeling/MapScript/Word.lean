/-!
# Words

Little-endian 32-bit words in byte strings.
-/

namespace MapScript.Word

/-- The word of four bytes, the lowest first. -/
def ofBytes (a b c d : UInt8) : UInt32 :=
  UInt32.ofNat (a.toNat + 256 * (b.toNat + 256 * (c.toNat + 256 * d.toNat)))

/-- The four bytes of a word, the lowest first. -/
def toBytes (w : UInt32) : List UInt8 :=
  let n := w.toNat
  [UInt8.ofNat n, UInt8.ofNat (n / 256), UInt8.ofNat (n / 65536), UInt8.ofNat (n / 16777216)]

/-- The words of a byte string. Bytes that do not fill a word are left out. -/
def split : List UInt8 → List UInt32
  | a :: b :: c :: d :: rest => ofBytes a b c d :: split rest
  | _ => []

/-- The bytes of a row of words. -/
def join (ws : List UInt32) : List UInt8 := ws.flatMap toBytes

@[simp] theorem length_toBytes (w : UInt32) : (toBytes w).length = 4 := rfl

theorem length_split (bytes : List UInt8) : (split bytes).length = bytes.length / 4 := by
  fun_induction split bytes with
  | case1 a b c d rest ih => simp only [List.length_cons, ih]; omega
  | case2 bytes h =>
    match bytes with
    | [] => rfl
    | [_] => simp
    | [_, _] => simp
    | [_, _, _] => simp
    | a :: b :: c :: d :: rest => exact absurd rfl (h a b c d rest)

@[simp] theorem ofBytes_toBytes (w : UInt32) :
    ofBytes (UInt8.ofNat w.toNat) (UInt8.ofNat (w.toNat / 256)) (UInt8.ofNat (w.toNat / 65536))
      (UInt8.ofNat (w.toNat / 16777216)) = w := by
  apply UInt32.toNat.inj
  have hw := w.toNat_lt
  simp only [ofBytes, UInt8.toNat_ofNat', UInt32.toNat_ofNat']
  omega

theorem split_toBytes_append (w : UInt32) (rest : List UInt8) :
    split (toBytes w ++ rest) = w :: split rest := by
  simp only [toBytes, List.cons_append, List.nil_append, split, ofBytes_toBytes]

@[simp] theorem length_join (ws : List UInt32) : (join ws).length = 4 * ws.length := by
  induction ws with
  | nil => rfl
  | cons w ws ih =>
    have : join (w :: ws) = toBytes w ++ join ws := rfl
    rw [this, List.length_append, ih, length_toBytes, List.length_cons]
    omega

/-- Words written as bytes read back, whatever bytes follow. -/
theorem split_join_append (ws : List UInt32) (rest : List UInt8) :
    split (join ws ++ rest) = ws ++ split rest := by
  induction ws with
  | nil => rfl
  | cons w ws ih =>
    have : join (w :: ws) = toBytes w ++ join ws := rfl
    rw [this, List.append_assoc, split_toBytes_append, ih, List.cons_append]

theorem split_join (ws : List UInt32) : split (join ws) = ws := by
  have h := split_join_append ws []
  rw [List.append_nil] at h
  rw [h]
  exact List.append_nil ws

end MapScript.Word

import EsigSuite.Pdf.PqCert

/-!
# Reading back what was written

`readTlv` of `pq-cert.ts` on encoded values: it finds every value where it was
written, in the short and in the long form of lengths, as long as the buffer is
shorter than `2 ^ 31` octets. `signedParts_tlv` is the result for certificates.
-/

namespace EsigSuite.PqCert

open Lib

-- ---------------------------------------------------------------------------
-- Octets
-- ---------------------------------------------------------------------------

theorem shiftIn_small {len : Nat} {b : UInt8} (h : len * 256 + b.toNat < 2 ^ 31) :
    shiftIn len (some b) = ((len * 256 + b.toNat : Nat) : Int) := by
  rw [shiftIn, Option.getD_some, Int.bmod_eq_of_le] <;> push_cast <;> omega

theorem foldl_shiftIn (octets : Bytes) (len : Nat)
    (h : (octets.map UInt8.toNat).foldl (fun n d => n * 256 + d) len < 2 ^ 31) :
    octets.foldl (fun len b => shiftIn len (some b)) (len : Int) =
      (((octets.map UInt8.toNat).foldl (fun n d => n * 256 + d) len : Nat) : Int) := by
  induction octets generalizing len with
  | nil => rfl
  | cons b octets ih =>
    rw [List.map_cons, List.foldl_cons] at h ⊢
    have hle : len * 256 + b.toNat ≤
        (octets.map UInt8.toNat).foldl (fun n d => n * 256 + d) (len * 256 + b.toNat) := by
      rw [Radix.foldl_value]
      exact (Nat.le_mul_of_pos_right _ (by positivity)).trans (Nat.le_add_right _ _)
    rw [List.foldl_cons, shiftIn_small (by omega), ih _ h]

theorem byteAt_append (pre octets post : Bytes) {k : Nat} (hk : k < octets.length) :
    byteAt (pre ++ octets ++ post) (.int (pre.length + k : Nat)) = some (octets.get ⟨k, hk⟩) := by
  rw [byteAt, if_pos (by omega), Int.toNat_natCast, List.append_assoc,
    List.getElem?_append_right (by omega), Nat.add_sub_cancel_left, List.getElem?_append_left hk,
    List.getElem?_eq_getElem hk]
  rfl

/-- A loop over offsets reads the octets that stand there. -/
theorem foldl_byteAt (f : Int → Option UInt8 → Int) (pre octets post : Bytes) (acc : Int)
    (h : pre.length + octets.length < 2 ^ 53) :
    (List.range octets.length).foldl
      (fun len k => f len (byteAt (pre ++ octets ++ post) (.int pre.length + .int k))) acc =
        octets.foldl (fun len b => f len (some b)) acc := by
  have hbyte : ∀ k (hk : k < octets.length),
      byteAt (pre ++ octets ++ post) (.int pre.length + .int k) = some (octets.get ⟨k, hk⟩) := by
    intro k hk
    rw [Number.int_add_int, Number.round_small (by omega), ← byteAt_append pre octets post hk]
    push_cast
    rfl
  calc (List.range octets.length).foldl
        (fun len k => f len (byteAt (pre ++ octets ++ post) (.int pre.length + .int k))) acc
      = (List.finRange octets.length).foldl (fun len k => f len (some (octets.get k))) acc := by
        rw [← List.map_coe_finRange_eq_range, List.foldl_map]
        refine List.foldl_ext _ _ _ fun len k _ => ?_
        rw [hbyte k.val k.isLt]
    _ = octets.foldl (fun len b => f len (some b)) acc := by
        conv_rhs => rw [← List.map_get_finRange octets, List.foldl_map]

-- ---------------------------------------------------------------------------
-- One value
-- ---------------------------------------------------------------------------

theorem closeTlv_fits {der : Bytes} {start contentStart len : Nat} (hlt : der.length < 2 ^ 31)
    (h : contentStart + len ≤ der.length) :
    closeTlv der (.int start) (.int contentStart) (.int len) =
      .ok ⟨byteAt der (.int start), .int start, .int contentStart,
        .int (contentStart + len : Nat)⟩ := by
  have hlength : Number.ofNat der.length = .int der.length := Number.ofNat_small (by omega)
  have hstop : (.int contentStart + .int len : Number) = .int (contentStart + len : Nat) := by
    rw [Number.int_add_int, Number.round_small (by omega)]
    push_cast
    rfl
  have hroom : ¬ (Number.int der.length).lt (.int (contentStart + len : Nat)) = true := by
    rw [Number.lt, decide_eq_true_eq]
    omega
  rw [closeTlv, hstop, hlength, if_neg hroom]

/-- The octets before the contents. -/
def headerLength (contents : Bytes) : Nat := 1 + (Der.lengthOctets contents.length).length

theorem length_tlv (id : UInt8) (contents : Bytes) :
    (Der.tlv id contents).length = headerLength contents + contents.length := by
  simp only [Der.tlv, headerLength, List.length_cons, List.length_append]
  omega

theorem two_le_headerLength (contents : Bytes) : 2 ≤ headerLength contents := by
  rw [headerLength, Der.lengthOctets]
  split
  · exact le_rfl
  · rw [List.length_cons]
    omega

theorem short_bit : ∀ n < 128, UInt8.ofNat n &&& 0x80 = 0 := by decide

theorem long_bits : ∀ k ≤ 4, UInt8.ofNat (128 + k) &&& 0x80 ≠ 0 ∧
    (UInt8.ofNat (128 + k) &&& 0x7f).toNat = k := by decide

/-- The loop over the length octets of the long form. -/
theorem foldl_length {n : Nat} (hn : n < 2 ^ 31) (pre post : Bytes)
    (h : pre.length < 2 ^ 31) :
    (List.range (Der.bigEndian n).length).foldl
      (fun len k => shiftIn len (byteAt (pre ++ Der.bigEndian n ++ post)
        (.int pre.length + .int k))) 0 = n := by
  have hvalue : ((Der.bigEndian n).map UInt8.toNat).foldl (fun n d => n * 256 + d) 0 = n :=
    Der.value_bigEndian n
  have hle := Der.length_bigEndian hn
  have hloop := foldl_shiftIn (Der.bigEndian n) 0 (by rw [hvalue]; exact hn)
  rw [hvalue] at hloop
  rw [foldl_byteAt shiftIn _ _ _ _ (by omega)]
  exact hloop

theorem readTlv_tlv (pre : Bytes) (id : UInt8) (contents post : Bytes)
    (h : (pre ++ Der.tlv id contents ++ post).length < 2 ^ 31) :
    readTlv (pre ++ Der.tlv id contents ++ post) (.int pre.length) =
      .ok ⟨some id, .int pre.length, .int (pre.length + headerLength contents : Nat),
        .int (pre.length + (Der.tlv id contents).length : Nat)⟩ := by
  have htlv := length_tlv id contents
  have htwo := two_le_headerLength contents
  generalize hder : pre ++ Der.tlv id contents ++ post = der at h ⊢
  have hlength : der.length = pre.length + headerLength contents + contents.length + post.length := by
    rw [← hder, List.length_append, List.length_append, htlv]
    omega
  have hat : ∀ k (hk : k < (Der.tlv id contents).length),
      byteAt der (.int (pre.length + k : Nat)) = some ((Der.tlv id contents).get ⟨k, hk⟩) :=
    fun k hk => hder ▸ byteAt_append pre (Der.tlv id contents) post hk
  have htag : byteAt der (.int pre.length) = some id := hat 0 (by omega)
  have hnext : ∀ n : Nat, n ≤ der.length →
      (.int n + .int 1 : Number) = .int (n + 1 : Nat) := fun n hn => by
    rw [Number.int_add_int, Number.round_small (by omega)]
    rfl
  have hroom : ¬ (Number.int (pre.length + 1 : Nat)).ge (.int der.length) = true := by
    simp only [Number.ge, Number.lt, Bool.not_eq_true', decide_eq_false_iff_not, not_not]
    omega
  rw [readTlv, hnext _ (by omega), Number.ofNat_small (by omega), if_neg hroom,
    hnext _ (by omega)]
  by_cases hshort : contents.length < 128
  · have hoctets : Der.lengthOctets contents.length = [UInt8.ofNat contents.length] := if_pos hshort
    have hfirst : byteAt der (.int (pre.length + 1 : Nat)) =
        some (UInt8.ofNat contents.length) := by
      rw [hat 1 (by omega)]
      simp [Der.tlv, hoctets]
    have hlen : (UInt8.ofNat contents.length).toNat = contents.length :=
      Nat.mod_eq_of_lt (by omega)
    have hheader : headerLength contents = 2 := by rw [headerLength, hoctets]; rfl
    simp only [hfirst, short_bit _ hshort, ne_eq, not_true_eq_false, if_false, hlen]
    rw [closeTlv_fits (by omega) (by omega), htag, htlv, hheader, ← Nat.add_assoc]
  · have hcontents : contents.length < 2 ^ 31 := by omega
    obtain ⟨-, hpos, hle⟩ := Der.long_form (by omega) hcontents
    have hoctets : Der.lengthOctets contents.length =
        UInt8.ofNat (128 + (Der.bigEndian contents.length).length) ::
          Der.bigEndian contents.length := if_neg hshort
    obtain ⟨hbit, hcount⟩ := long_bits _ hle
    have hfirst : byteAt der (.int (pre.length + 1 : Nat)) =
        some (UInt8.ofNat (128 + (Der.bigEndian contents.length).length)) := by
      rw [hat 1 (by omega)]
      simp [Der.tlv, hoctets]
    have hheader : headerLength contents = 2 + (Der.bigEndian contents.length).length := by
      rw [headerLength, hoctets, List.length_cons]
      omega
    have hloop := foldl_length hcontents
      (pre ++ [id, UInt8.ofNat (128 + (Der.bigEndian contents.length).length)])
      (contents ++ post) (by rw [List.length_append]; simp only [List.length_cons, List.length_nil]; omega)
    have hsplit : pre ++ [id, UInt8.ofNat (128 + (Der.bigEndian contents.length).length)] ++
        Der.bigEndian contents.length ++ (contents ++ post) = der := by
      rw [← hder, Der.tlv, hoctets]
      simp
    have hpre : (pre ++ [id, UInt8.ofNat (128 + (Der.bigEndian contents.length).length)]).length =
        pre.length + 2 := by simp
    rw [hsplit, hpre] at hloop
    have hstart : (.int (pre.length + 2 : Nat) + .int (Der.bigEndian contents.length).length : Number) =
        .int (pre.length + headerLength contents : Nat) := by
      rw [Number.int_add_int, Number.round_small (by omega), hheader]
      push_cast
      rw [add_assoc]
    have hrange : ¬ ((Der.bigEndian contents.length).length = 0 ∨
        (Der.bigEndian contents.length).length > 4) := by omega
    simp only [hfirst, hbit, hcount, hrange, hloop, hstart, ne_eq, not_false_eq_true, if_true,
      if_false]
    rw [closeTlv_fits (by omega) (by omega), htag, htlv, ← Nat.add_assoc]

-- ---------------------------------------------------------------------------
-- The parts of a certificate
-- ---------------------------------------------------------------------------

/-- The signed bytes are those that were written, and the signature is what
follows the first octet of the last value. -/
theorem signedParts_tlv (id idTbs idAlg idSig : UInt8) (tbs alg sig : Bytes) (lead : UInt8)
    (h : (Der.tlv id (Der.tlv idTbs tbs ++ Der.tlv idAlg alg ++
      Der.tlv idSig (lead :: sig))).length < 2 ^ 31) :
    signedParts (Der.tlv id (Der.tlv idTbs tbs ++ Der.tlv idAlg alg ++
      Der.tlv idSig (lead :: sig))) = .ok (Der.tlv idTbs tbs, sig) := by
  generalize hcontents : Der.tlv idTbs tbs ++ Der.tlv idAlg alg ++ Der.tlv idSig (lead :: sig) =
    contents at h ⊢
  generalize hhead : id :: Der.lengthOctets contents.length = head
  have hheader : headerLength contents = head.length := by
    rw [headerLength, ← hhead, List.length_cons, Nat.add_comm]
  have hder : Der.tlv id contents = head ++ contents := by rw [Der.tlv, ← hhead, List.cons_append]
  have houter : readTlv (Der.tlv id contents) (.int 0) =
      .ok ⟨some id, .int 0, .int head.length, .int (Der.tlv id contents).length⟩ := by
    have hread := readTlv_tlv [] id contents [] (by simpa using h)
    simpa [hheader] using hread
  have htbs := readTlv_tlv head idTbs tbs (Der.tlv idAlg alg ++ Der.tlv idSig (lead :: sig))
  have halg := readTlv_tlv (head ++ Der.tlv idTbs tbs) idAlg alg (Der.tlv idSig (lead :: sig))
  have hsig := readTlv_tlv (head ++ Der.tlv idTbs tbs ++ Der.tlv idAlg alg) idSig (lead :: sig) []
  have hslice := slice_append head (Der.tlv idTbs tbs)
    (Der.tlv idAlg alg ++ Der.tlv idSig (lead :: sig))
  have hbody := slice_append (head ++ Der.tlv idTbs tbs ++ Der.tlv idAlg alg ++
    idSig :: Der.lengthOctets (lead :: sig).length ++ [lead]) sig []
  have hbefore : (head ++ Der.tlv idTbs tbs ++ Der.tlv idAlg alg ++
      idSig :: Der.lengthOctets (lead :: sig).length ++ [lead]).length =
        (head ++ Der.tlv idTbs tbs ++ Der.tlv idAlg alg).length + headerLength (lead :: sig) + 1 := by
    simp only [headerLength, List.length_append, List.length_cons, List.length_nil]
    omega
  have hsplit : head ++ Der.tlv idTbs tbs ++ (Der.tlv idAlg alg ++ Der.tlv idSig (lead :: sig)) =
      Der.tlv id contents := by
    rw [hder, ← hcontents]
    simp
  have hwhole : head ++ Der.tlv idTbs tbs ++ Der.tlv idAlg alg ++ Der.tlv idSig (lead :: sig) =
      Der.tlv id contents := by
    rw [hder, ← hcontents]
    simp
  have hparts : head ++ Der.tlv idTbs tbs ++ Der.tlv idAlg alg ++
      idSig :: Der.lengthOctets (lead :: sig).length ++ [lead] ++ sig = Der.tlv id contents := by
    have htlv : Der.tlv idSig (lead :: sig) =
        idSig :: (Der.lengthOctets (lead :: sig).length ++ lead :: sig) := rfl
    rw [← hwhole, htlv]
    simp
  rw [hsplit] at htbs hslice
  rw [hwhole] at halg
  rw [List.append_nil, hwhole] at hsig
  rw [List.append_nil, hparts, hbefore] at hbody
  have htbsLength : (head ++ Der.tlv idTbs tbs).length = head.length + (Der.tlv idTbs tbs).length :=
    List.length_append
  have halgLength : (head ++ Der.tlv idTbs tbs ++ Der.tlv idAlg alg).length =
      (head ++ Der.tlv idTbs tbs).length + (Der.tlv idAlg alg).length := List.length_append
  have hlast : (Number.int ((head ++ Der.tlv idTbs tbs ++ Der.tlv idAlg alg).length +
      headerLength (lead :: sig) : Nat) + .int 1) =
        .int ((head ++ Der.tlv idTbs tbs ++ Der.tlv idAlg alg).length +
          headerLength (lead :: sig) + 1 : Nat) := by
    rw [Number.int_add_int, Number.round_small]
    · push_cast
      rfl
    · have hlength := congrArg List.length hparts
      rw [List.length_append, hbefore] at hlength
      omega
  have hstop : (head ++ Der.tlv idTbs tbs ++ Der.tlv idAlg alg).length +
      (Der.tlv idSig (lead :: sig)).length =
        (head ++ Der.tlv idTbs tbs ++ Der.tlv idAlg alg).length + headerLength (lead :: sig) + 1 +
          sig.length := by
    rw [length_tlv, List.length_cons]
    omega
  rw [signedParts, houter]
  simp only [bind, Except.bind]
  rw [htbs h]
  dsimp only
  rw [← htbsLength, halg h]
  dsimp only
  rw [← halgLength, hsig h]
  dsimp only [pure, Except.pure]
  rw [hlast, htbsLength, hslice, hstop, hbody]

end EsigSuite.PqCert

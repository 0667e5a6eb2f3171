import EsigSuite.Pdf.Der
import EsigSuite.Pdf.Hole
import EsigSuite.Pdf.OverflowGuard

/-!
# What a time stamp is about

`signPdf` embeds the token of any granted response and reports a time stamp;
nothing compares the message imprint or the nonce. `signPdf_timestampBound_iff`:
the verifier's check of the imprint passes exactly when the token was made for
this signature, in a file whose first /ByteRange leads to it.
-/

namespace EsigSuite.SignPdf

open Lib Asn1

-- ---------------------------------------------------------------------------
-- The check of the verifier
-- ---------------------------------------------------------------------------

/-- The verifier reads this signature of the file, with a time stamp, and has nothing
to say against its message imprint. -/
structure TimestampBound (forge : Forge) (pdf : Buffer) (der : Bytes) : Prop where
  located : ∃ l, locatePkcs7 pdf = .ok l ∧ l.pkcs7Der = der
  timestamped : (verifyPdfStructure forge pdf).timestamped = true
  matching : .timestampMismatch ∉ (verifyPdfStructure forge pdf).failures
  readable : .timestampUnreadable ∉ (verifyPdfStructure forge pdf).failures

/-- The first /ByteRange of the prepared file leads to the signature. -/
def Prepared.Leads (p : Prepared) (der : Bytes) : Prop :=
  ∃ r, (matchByteRange p.head).or (matchByteRange p.tail) = some r ∧
    r.fills (p.head.length + (p.digits + 2) + p.tail.length) ∧
      r.pkcs7Der? (p.file der).bytes = some der

/-- What node-forge is documented to do: it reads back what it has written, with the
BIT STRINGs opened, and the certificates of a message are not in its SignerInfos. -/
structure Rereads (forge : SigningForge) (composed : Bytes → Option Asn1) : Prop where
  fromDer : ∀ node der, forge.toDer node = .ok der →
    forge.fromDer der = .ok (Der.decoded composed node)
  derToOid : forge.derToOid (forge.oidToDer OID_TIMESTAMP_TOKEN) = .ok OID_TIMESTAMP_TOKEN
  certificates : ∀ cert content time p7, forge.signedData cert content time = .ok p7 → ∀ f g,
    ∃ c cs, forge.certificates (Der.decoded composed ((p7.mapSignerInfo f).mapSignerInfo g)) =
      .ok (c :: cs)

/-- The token, as it is read back, has a message imprint, which is the digest of the
signature value. An empty signature value is compared with nothing. -/
def StampFor (forge : Forge) (composed : Bytes → Option Asn1) (token : Asn1) (sigValue : Bytes) :
    Prop :=
  ∃ imprint ≠ [], (parseTstInfo forge (Der.decoded composed token)).messageImprintHashHex =
      some imprint ∧
    (sigValue = [] ∨ imprint = bytesToHex (forge.sha256 sigValue))

/-- How a signature with a time stamp came about: the signature value, the token of the
response, and the tree that was written. -/
structure Stamped (forge : SigningForge) (run : SigningRun) (tsa : TsaTransport)
    (signature : PemSignature) (sigValue : Bytes) (token : Asn1) : Prop where
  requested : requestToken forge tsa run.nonceBytes sigValue = .ok token
  written : ∃ signer : PemSigner, ∃ content time p7 resigned tree,
    forge.signedData signer.certificate content time = .ok p7 ∧
      signer.addSigningCertV2AndResign forge p7 = .ok (resigned, sigValue) ∧
        spliceUnsignedAttrs resigned (timestampAttrs forge token) = .ok tree ∧
          forge.toDer tree = .ok signature.der

-- ---------------------------------------------------------------------------
-- The first SignerInfo
-- ---------------------------------------------------------------------------

section
variable {composed : Bytes → Option Asn1}

/-- The children of the first SignerInfo, as signer and verifier find them. -/
def signerInfo? (contentInfo : Asn1) : Option (List Asn1) :=
  (((((contentInfo.children?.bind (lastWhere isContext)).bind children?).bind (·.head?)).bind
    children?).bind fun signedData =>
      (((lastWhere isSet signedData).bind children?).bind (·.head?)).bind children?)

theorem signerInfoChildren_eq {noContent noData noInfos malformed : PemSignerError} {node : Asn1}
    {children : List Asn1}
    (h : signerInfoChildren noContent noData noInfos malformed node = .ok children) :
    signerInfo? node = some children := by
  unfold signerInfoChildren at h
  split at h
  · cases h
  next cs hcs =>
    split at h
    · cases h
    next signedData hdata =>
      split at h
      · cases h
      next info hinfo =>
        split at h
        · cases h
        next found hfound =>
          cases h
          rw [signerInfo?, hcs, Option.bind_some, hdata, Option.bind_some, hinfo, Option.bind_some,
            hfound]

theorem signedDataOf_eq (node : Asn1) : signedDataOf node =
    (((node.children?.bind (lastWhere isContext)).bind children?).bind (·.head?)) := by
  unfold signedDataOf
  cases node.children? with
  | none => rfl
  | some cs =>
    refine (List.foldl_ext _
      (fun found child => if isContext child then child.children?.bind (·.head?) else found) none
      fun found child _ => ?_).trans ?_
    · unfold isContext
      cases child.tagClass == CONTEXT_SPECIFIC <;> cases child.children? <;> rfl
    · rw [foldl_lastWhere, Option.bind_some]
      cases lastWhere isContext cs <;> rfl

theorem firstSignerInfo_eq (node : Asn1) :
    (firstSignerInfo node).bind children? = signerInfo? node := by
  unfold firstSignerInfo signerInfo?
  rw [signedDataOf_eq]
  cases ((node.children?.bind (lastWhere isContext)).bind children?).bind (·.head?) with
  | none => rfl
  | some signedData =>
    cases hcs : signedData.children? with
    | none => simp [hcs]
    | some cs =>
      have hlast : cs.foldl (fun (found : Option (List Asn1)) child =>
          if child.tagClass = UNIVERSAL ∧ child.type = SET then child.children?.or found
          else found) none = (lastWhere isSet cs).bind children? := by
        refine (List.foldl_ext _ (fun found child =>
          if (child.tagClass == UNIVERSAL && child.type == SET) = true then
            (children? child).or found else found) none fun found child _ => ?_).trans
            (foldl_lastRead children? cs)
        simp only [Bool.and_eq_true, beq_iff_eq]
      simp only [Option.bind_some, hcs, Option.bind_eq_bind, hlast]

theorem children?_mapChildren (f : List Asn1 → List Asn1) (node : Asn1) :
    (mapChildren f node).children? = node.children?.map f := by
  cases node <;> rfl

theorem isContext_mapChildren (f : List Asn1 → List Asn1) (node : Asn1) :
    isContext (mapChildren f node) = isContext node := by
  cases node <;> rfl

theorem isSet_mapChildren (f : List Asn1 → List Asn1) (node : Asn1) :
    isSet (mapChildren f node) = isSet node := by
  cases node <;> rfl

theorem head?_mapHead (f : Asn1 → Asn1) (nodes : List Asn1) :
    (mapHead f nodes).head? = nodes.head?.map f := by
  cases nodes <;> rfl

/-- The change is seen where it was made. -/
theorem signerInfo?_mapSignerInfo (f : List Asn1 → List Asn1) (node : Asn1) :
    signerInfo? (node.mapSignerInfo f) = (signerInfo? node).map f := by
  have hcontext : ∀ g cs, lastWhere isContext (mapLast isContext (mapChildren g) cs) =
      (lastWhere isContext cs).map (mapChildren g) := fun g =>
    lastWhere_mapLast fun child hchild => (isContext_mapChildren g child).trans hchild
  have hset : ∀ g cs, lastWhere isSet (mapLast isSet (mapChildren g) cs) =
      (lastWhere isSet cs).map (mapChildren g) := fun g =>
    lastWhere_mapLast fun child hchild => (isSet_mapChildren g child).trans hchild
  unfold signerInfo? mapSignerInfo
  rw [children?_mapChildren]
  cases node.children? with
  | none => rfl
  | some cs =>
    simp only [Option.map_some, Option.bind_some, hcontext]
    cases lastWhere isContext cs with
    | none => rfl
    | some content =>
      simp only [Option.map_some, Option.bind_some, children?_mapChildren]
      cases content.children? with
      | none => rfl
      | some wrapped =>
        simp only [Option.map_some, Option.bind_some, head?_mapHead]
        cases wrapped.head? with
        | none => rfl
        | some signedData =>
          simp only [Option.map_some, Option.bind_some, children?_mapChildren]
          cases signedData.children? with
          | none => rfl
          | some parts =>
            simp only [Option.map_some, Option.bind_some, hset]
            cases lastWhere isSet parts with
            | none => rfl
            | some infos =>
              simp only [Option.map_some, Option.bind_some, children?_mapChildren]
              cases infos.children? with
              | none => rfl
              | some all =>
                simp only [Option.map_some, Option.bind_some, head?_mapHead]
                cases all.head? with
                | none => rfl
                | some info => simp only [Option.map_some, Option.bind_some, children?_mapChildren]

theorem isContext_decoded (node : Asn1) : isContext (Der.decoded composed node) = isContext node := by
  unfold isContext
  rw [Der.tagClass_decoded]
  by_cases hclass : node.tagClass = CONTEXT_SPECIFIC
  · rw [Der.children?_decoded (.inl (by rw [hclass]; decide)), Option.isSome_map]
  · rw [beq_false_of_ne hclass, Bool.false_and, Bool.false_and]

theorem isSet_decoded (node : Asn1) : isSet (Der.decoded composed node) = isSet node := by
  unfold isSet
  rw [Der.tagClass_decoded, Der.type_decoded]
  by_cases htype : node.type = SET
  · rw [Der.children?_decoded (.inr (by rw [htype]; decide)), Option.isSome_map]
  · rw [beq_false_of_ne htype, Bool.and_false, Bool.false_and, Bool.false_and]

theorem lastWhere_decoded {p : Asn1 → Bool} (hp : ∀ node, p (Der.decoded composed node) = p node)
    (cs : List Asn1) : lastWhere p (cs.map (Der.decoded composed)) =
      (lastWhere p cs).map (Der.decoded composed) := by
  rw [lastWhere_map, funext hp (f := p ∘ Der.decoded composed)]

theorem signerInfo?_decoded {node : Asn1} {cs : List Asn1} (h : signerInfo? node = some cs) :
    signerInfo? (Der.decoded composed node) = some (cs.map (Der.decoded composed)) := by
  unfold signerInfo? at h ⊢
  obtain ⟨signedParts, hparts, h⟩ := Option.bind_eq_some_iff.mp h
  obtain ⟨signedData, hdata, hparts⟩ := Option.bind_eq_some_iff.mp hparts
  obtain ⟨wrapped, hwrapped, hdata⟩ := Option.bind_eq_some_iff.mp hdata
  obtain ⟨content, hcontent, hwrapped⟩ := Option.bind_eq_some_iff.mp hwrapped
  obtain ⟨children, hchildren, hcontent⟩ := Option.bind_eq_some_iff.mp hcontent
  obtain ⟨info, hinfo, h⟩ := Option.bind_eq_some_iff.mp h
  obtain ⟨infos, hinfos, hinfo⟩ := Option.bind_eq_some_iff.mp hinfo
  obtain ⟨set, hset, hinfos⟩ := Option.bind_eq_some_iff.mp hinfos
  rw [Der.children?_decoded_some hchildren, Option.bind_some, lastWhere_decoded isContext_decoded,
    hcontent, Option.map_some, Option.bind_some, Der.children?_decoded_some hwrapped,
    Option.bind_some, List.head?_map, hdata, Option.map_some, Option.bind_some,
    Der.children?_decoded_some hparts, Option.bind_some, lastWhere_decoded isSet_decoded, hset,
    Option.map_some, Option.bind_some, Der.children?_decoded_some hinfos, Option.bind_some,
    List.head?_map, hinfo, Option.map_some, Option.bind_some, Der.children?_decoded_some h]

-- ---------------------------------------------------------------------------
-- What the verifier reads
-- ---------------------------------------------------------------------------

/-- An OCTET STRING that is held as bytes. -/
def isOctets (node : Asn1) : Bool := isOctetString node && node.string?.isSome

theorem signatureValueOf_eq (children : List Asn1) :
    signatureValueOf children = (lastWhere isOctets children).bind string? := by
  unfold signatureValueOf
  refine (List.foldl_ext _ (fun found child =>
    if isOctetString child then (string? child).or found else found) none
    fun found child _ => ?_).trans (foldl_lastRead string? children)
  simp only [isOctetString, Bool.and_eq_true, beq_iff_eq]

theorem contextNode_eq (n : Nat) (children : List Asn1) :
    contextNode n children = lastWhere (isContextNode n) children := by
  unfold contextNode
  refine (List.foldl_ext _ (fun found child => if isContextNode n child then some child else found)
    none fun found child _ => ?_).trans ?_
  · simp only [isContextNode, Bool.and_eq_true, beq_iff_eq]
  · rw [foldl_lastWhere]
    cases lastWhere (isContextNode n) children <;> rfl

theorem isOctets_decoded (node : Asn1) : isOctets (Der.decoded composed node) = isOctets node := by
  unfold isOctets isOctetString
  rw [Der.tagClass_decoded, Der.type_decoded]
  by_cases htype : node.type = OCTETSTRING
  · rw [Der.string?_decoded (by rw [htype]; decide) (by rw [htype]; decide)]
  · rw [beq_false_of_ne htype, Bool.and_false, Bool.false_and, Bool.false_and]

/-- The signature value that was put in is read, behind whatever attributes. -/
theorem signatureValueOf_resigned {children attrs : List Asn1} {sigValue : Bytes}
    {unsignedAttrs : Asn1} (hoctets : (lastWhere isOctetString children).isSome)
    (hunsigned : unsignedAttrs.tagClass = CONTEXT_SPECIFIC) :
    signatureValueOf ((resignedChildren attrs sigValue children ++ [unsignedAttrs]).map
      (Der.decoded composed)) = some sigValue := by
  have hother : ∀ node, isContextNode 0 node = true → isOctetString node = false ∧
      isOctetString (mapChildren (fun _ => attrs) node) = false := by
    intro node hnode
    rw [isContextNode, Bool.and_eq_true, beq_iff_eq] at hnode
    cases node with
    | primitive c t v =>
      obtain rfl : c = CONTEXT_SPECIFIC := hnode.1
      exact ⟨rfl, rfl⟩
    | constructed c t cs =>
      obtain rfl : c = CONTEXT_SPECIFIC := hnode.1
      exact ⟨rfl, rfl⟩
  obtain ⟨found, hfound⟩ := Option.isSome_iff_exists.mp hoctets
  rw [← lastWhere_mapLast_other hother] at hfound
  have hlast : lastWhere isOctets (resignedChildren attrs sigValue children) =
      some (.primitive UNIVERSAL OCTETSTRING sigValue) :=
    lastWhere_mapLast_narrow (fun node hnode => (Bool.and_eq_true_iff.mp hnode).1) hfound rfl
  have hnone : isOctets unsignedAttrs = false := by
    rw [isOctets, isOctetString, hunsigned]
    rfl
  have hread : Der.decoded composed (.primitive UNIVERSAL OCTETSTRING sigValue) =
      .primitive UNIVERSAL OCTETSTRING sigValue := by
    rw [Der.decoded_primitive _ (.inr (by decide)), Der.octets_eq (by decide)]
  rw [signatureValueOf_eq, lastWhere_decoded isOctets_decoded, lastWhere_append, lastWhere_cons,
    hnone, hlast]
  change (some (Der.decoded composed _)).bind string? = _
  rw [hread]
  rfl

/-- The attributes that were appended are those that are read. -/
theorem contextNode_appended {children : List Asn1} {unsignedAttrs : Asn1}
    (hunsigned : isContextNode 1 unsignedAttrs = true) :
    contextNode 1 ((children ++ [unsignedAttrs]).map (Der.decoded composed)) =
      some (Der.decoded composed unsignedAttrs) := by
  have hdecoded : ∀ node, isContextNode 1 (Der.decoded composed node) = isContextNode 1 node := by
    intro node
    rw [isContextNode, isContextNode, Der.tagClass_decoded, Der.type_decoded]
  rw [contextNode_eq, lastWhere_decoded hdecoded, lastWhere_append, lastWhere_cons,
    if_pos hunsigned]
  rfl

theorem timestampToken_attrs {forge : SigningForge} (hforge : Rereads forge composed)
    (token : Asn1) :
    ((Der.decoded composed (timestampAttrs forge token)).children?.bind
      (timestampToken forge.toForge)) = some (Der.decoded composed token) := by
  have hoid : Der.decoded composed (.primitive UNIVERSAL OID (forge.oidToDer OID_TIMESTAMP_TOKEN)) =
      .primitive UNIVERSAL OID (forge.oidToDer OID_TIMESTAMP_TOKEN) := by
    rw [Der.decoded_primitive _ (.inr (by decide)), Der.octets_eq (by decide)]
  have hsafe : safeOid forge.toForge
      (.primitive UNIVERSAL OID (forge.oidToDer OID_TIMESTAMP_TOKEN)) = OID_TIMESTAMP_TOKEN := by
    simp only [safeOid, string?, hforge.derToOid]
  have htype : (Asn1.primitive UNIVERSAL OID (forge.oidToDer OID_TIMESTAMP_TOKEN)).type = OID := rfl
  simp only [timestampAttrs, EsigSuite.sequence, Der.decoded_constructed, List.map_cons,
    List.map_nil, hoid, children?, Option.bind_some, timestampToken, htype, hsafe, ne_eq,
    not_true_eq_false, or_self, if_false, List.head?_cons, Option.some_or]

-- ---------------------------------------------------------------------------
-- The written signature
-- ---------------------------------------------------------------------------

theorem resigned_children {forge : SigningForge} {signer : PemSigner} {p7 resigned : Asn1}
    {sigValue : Bytes} (h : signer.addSigningCertV2AndResign forge p7 = .ok (resigned, sigValue)) :
    ∃ children attrs, signerInfo? p7 = some children ∧
      (lastWhere isOctetString children).isSome ∧
        resigned = p7.mapSignerInfo (resignedChildren attrs sigValue) := by
  unfold PemSigner.addSigningCertV2AndResign at h
  obtain ⟨children, hchildren, h⟩ := bind_eq_ok.mp h
  split at h
  next attrs octet hattrs hoctet =>
    obtain ⟨signature, -, h⟩ := bind_eq_ok.mp h
    cases h
    exact ⟨children, _, signerInfoChildren_eq hchildren, by rw [hoctet]; rfl, rfl⟩
  · cases h

/-- The time stamp as it is found in what was written. -/
theorem inspectTimestamp_stamped {forge : SigningForge} (hforge : Rereads forge composed)
    {signer : PemSigner} {p7 resigned tree token : Asn1} {sigValue : Bytes}
    (hsign : signer.addSigningCertV2AndResign forge p7 = .ok (resigned, sigValue))
    (hsplice : spliceUnsignedAttrs resigned (timestampAttrs forge token) = .ok tree) :
    ∃ ts, inspectTimestamp forge.toForge (Der.decoded composed tree) = ts ∧ ts.present = true ∧
      ts.sigValueHex = some (bytesToHex sigValue) ∧ ts.messageImprintHashHex =
        (parseTstInfo forge.toForge (Der.decoded composed token)).messageImprintHashHex := by
  obtain ⟨children, attrs, hchildren, hoctet, rfl⟩ := resigned_children hsign
  obtain ⟨-, -, hsplice⟩ := bind_eq_ok.mp hsplice
  cases hsplice
  have hinfo : signerInfo? ((p7.mapSignerInfo (resignedChildren attrs sigValue)).mapSignerInfo
      (· ++ [timestampAttrs forge token])) =
        some (resignedChildren attrs sigValue children ++ [timestampAttrs forge token]) := by
    rw [signerInfo?_mapSignerInfo, signerInfo?_mapSignerInfo, hchildren]
    rfl
  have hread : signerInfo? (Der.decoded composed _) = _ := signerInfo?_decoded hinfo
  have hvalue : signatureValueOf ((resignedChildren attrs sigValue children ++
      [timestampAttrs forge token]).map (Der.decoded composed)) = some sigValue :=
    signatureValueOf_resigned hoctet rfl
  have hcontext : contextNode 1 ((resignedChildren attrs sigValue children ++
      [timestampAttrs forge token]).map (Der.decoded composed)) =
        some (Der.decoded composed (timestampAttrs forge token)) := contextNode_appended rfl
  refine ⟨_, rfl, ?_⟩
  unfold inspectTimestamp
  rw [firstSignerInfo_eq, hread]
  simp only [hvalue, hcontext, Option.bind_some, timestampToken_attrs hforge token,
    Option.map_some, and_self]

/-- A failure that is about the time stamp. -/
def AboutTimestamp (failure : Failure) : Prop :=
  failure = .timestampMismatch ∨ failure = .timestampUnreadable

theorem checkSignature_failures (forge : Forge) (cert : Certificate) (attrs : List Asn1)
    (value : Option Bytes) :
    ∀ failure ∈ (checkSignature forge cert attrs value).2, ¬ AboutTimestamp failure := by
  unfold checkSignature
  split
  · simp [AboutTimestamp]
  · simp [AboutTimestamp]
  · split
    · simp [AboutTimestamp]
    · split <;> simp [AboutTimestamp]

/-- The other checks say nothing about the time stamp. -/
theorem crypto_failures (forge : Forge) (root : Asn1) (cert : Certificate) (content : Bytes) :
    ∀ failure ∈ (verifySignerCrypto forge root cert content).failures,
      ¬ AboutTimestamp failure := by
  unfold verifySignerCrypto verifySignerCryptoWith
  split
  · simp [AboutTimestamp]
  · dsimp only
    split
    · simp [AboutTimestamp]
    next attrs _ =>
      refine List.forall_mem_append.mpr ⟨?_, ?_⟩
      · split
        · simp [AboutTimestamp]
        · simp [AboutTimestamp]
        · split <;> simp [AboutTimestamp]
      · exact checkSignature_failures _ _ _ _

/-- The imprint check on a time stamp that was found. -/
theorem bindingFailures_iff {forge : Forge} {ts : TimestampInspection} {sigValue : Bytes}
    (hvalue : ts.sigValueHex = some (bytesToHex sigValue)) :
    (∀ failure ∈ bindingFailures forge ts, ¬ AboutTimestamp failure) ↔
      ∃ imprint ≠ [], ts.messageImprintHashHex = some imprint ∧
        (sigValue = [] ∨ imprint = bytesToHex (forge.sha256 sigValue)) := by
  have hempty : bytesToHex sigValue = [] ↔ sigValue = [] := by
    rw [← List.length_eq_zero_iff, length_bytesToHex, Nat.mul_eq_zero, List.length_eq_zero_iff]
    simp
  unfold bindingFailures sha256Hex
  rw [hvalue]
  simp only [Option.getD_some, fromHex_bytesToHex, ne_eq, hempty]
  cases himprint : ts.messageImprintHashHex with
  | none => simp [AboutTimestamp]
  | some imprint =>
    by_cases hnil : imprint = []
    · simp [hnil, AboutTimestamp]
    · by_cases hsig : sigValue = []
      · simp [hnil, hsig]
      · by_cases heq : bytesToHex (forge.sha256 sigValue) = imprint
        · simp [hnil, hsig, heq]
        · simp [hnil, hsig, heq, AboutTimestamp, Ne.symm heq]

-- ---------------------------------------------------------------------------
-- The returned file
-- ---------------------------------------------------------------------------

theorem located_iff {p : Prepared} {der : Bytes} :
    (∃ l, locatePkcs7 (p.file der) = .ok l ∧ l.pkcs7Der = der) ↔ p.Leads der := by
  constructor
  · rintro ⟨l, hl, hder⟩
    obtain ⟨r, found, hm, hfills, hfound, rfl⟩ := locatePkcs7_eq_ok.mp hl
    obtain rfl : found = der := hder
    rw [matchByteRange_file] at hm
    rw [p.length_file] at hfills
    exact ⟨r, hm, hfills, hfound⟩
  · rintro ⟨r, hm, hfills, hfound⟩
    refine ⟨⟨r, r.hole - .ofNat 2, der⟩, locatePkcs7_eq_ok.mpr ⟨r, der, ?_, ?_, hfound, rfl⟩, rfl⟩
    · rw [matchByteRange_file, hm]
    · rw [p.length_file]
      exact hfills

theorem digits_file (p : Prepared) (der : Bytes) : p.range.digits (p.file der).bytes =
    (bytesToHex der).take p.digits ++ List.replicate (p.digits - 2 * der.length) 0 := by
  have hlength := p.length_lt
  have hone : Number.ofNat 1 = .int 1 := Number.ofNat_small (by norm_num)
  have hstart : p.range.a + p.range.b + .ofNat 1 = .int (p.head ++ [60]).length := by
    rw [hone, Prepared.range, Number.int_add_int, Number.round_small (by omega),
      Number.int_add_int, Number.round_small (by omega), List.length_append, zero_add]
    rfl
  have hstop : p.range.c - .ofNat 1 =
      .int ((p.head ++ [60]).length + (p.contents der).length : Nat) := by
    rw [hone, Prepared.range, Number.int_sub_int, Number.round_small (by omega), List.length_append,
      p.length_contents, Number.int.injEq]
    push_cast
    simp only [List.length_cons, List.length_nil]
    omega
  have hbytes : (p.file der).bytes = p.head ++ [60] ++ p.contents der ++ 62 :: p.tail := by
    simp [Prepared.file]
  have hzero : ∀ n, hexDigits (List.replicate n 48) = List.replicate n 0 := fun n => by
    rw [hexDigits, List.filterMap_replicate_of_some (b := 0) (by decide)]
  rw [ByteRange.digits, hstart, hstop, hbytes, slice_append, Prepared.contents, ← List.map_take]
  rw [hexDigits, List.filterMap_append]
  change hexDigits _ ++ hexDigits _ = _
  rw [hexDigits_hexChar, hzero, List.length_map, length_bytesToHex]

/-- Where the /ByteRange of the placeholder is the first, it leads to a signature that
fits. -/
theorem leads_own {p : Prepared} (hown : matchByteRange p.head = some p.range) (der : Bytes) :
    p.Leads der ↔ derTotalLength der = some der.length ∧ 2 * der.length ≤ p.digits := by
  have hfits : bytesToHex der <+: p.range.digits (p.file der).bytes ↔ 2 * der.length ≤ p.digits := by
    rw [digits_file]
    constructor
    · intro hprefix
      have hle := hprefix.length_le
      rw [length_bytesToHex, List.length_append, List.length_take, List.length_replicate,
        length_bytesToHex] at hle
      omega
    · intro hle
      rw [List.take_of_length_le (by rw [length_bytesToHex]; exact hle)]
      exact List.prefix_append _ _
  rw [← hfits, ← pkcs7Der?_eq_some, Prepared.Leads, hown, Option.some_or]
  constructor
  · rintro ⟨r, hr, -, hder⟩
    obtain rfl := Option.some.inj hr
    exact hder
  · intro hder
    have hfills := p.range_fills der
    rw [p.length_file] at hfills
    exact ⟨p.range, rfl, hfills, hder⟩

/-- In a file that leads to the signature the verifier checks the time stamp. -/
theorem timestampBound_located {forge : Forge} {pdf : Buffer} {l : Located} {root : Asn1}
    {cert : Certificate} {certs : List Certificate} {ts : TimestampInspection} {sigValue : Bytes}
    (hl : locatePkcs7 pdf = .ok l) (hroot : forge.fromDer l.pkcs7Der = .ok root)
    (hcerts : forge.certificates root = .ok (cert :: certs))
    (hts : inspectTimestamp forge root = ts) (hpresent : ts.present = true)
    (hvalue : ts.sigValueHex = some (bytesToHex sigValue)) :
    TimestampBound forge pdf l.pkcs7Der ↔
      ∃ imprint ≠ [], ts.messageImprintHashHex = some imprint ∧
        (sigValue = [] ∨ imprint = bytesToHex (forge.sha256 sigValue)) := by
  have hparse : parsePkcs7 forge l.pkcs7Der = .ok (root, cert :: certs) := by
    rw [parsePkcs7, hroot]
    change (forge.certificates root).bind _ = _
    rw [hcerts]
    rfl
  have hverify : verifyPdfStructure forge pdf = verifyPkcs7 forge pdf l := by
    rw [verifyPdfStructure, hl]
  have hfailures : (verifyPdfStructure forge pdf).failures =
      (verifySignerCrypto forge root cert (l.byteRange.covered pdf.bytes)).failures ++
        bindingFailures forge ts := by
    rw [hverify]
    simp only [verifyPkcs7, hparse, hts, hpresent, if_true]
  have htimestamped : (verifyPdfStructure forge pdf).timestamped = true := by
    rw [hverify]
    simp only [verifyPkcs7, hparse, hts, hpresent]
  have hcrypto := crypto_failures forge root cert (l.byteRange.covered pdf.bytes)
  rw [← bindingFailures_iff hvalue]
  constructor
  · rintro ⟨-, -, hmatching, hreadable⟩ failure hfailure
    have hmem : failure ∈ (verifyPdfStructure forge pdf).failures := by
      rw [hfailures]
      exact List.mem_append_right _ hfailure
    rintro (rfl | rfl)
    · exact hmatching hmem
    · exact hreadable hmem
  · intro hbinding
    have hnone : ∀ failure ∈ (verifyPdfStructure forge pdf).failures, ¬ AboutTimestamp failure := by
      rw [hfailures]
      exact List.forall_mem_append.mpr ⟨hcrypto, hbinding⟩
    exact ⟨⟨l, hl, rfl⟩, htimestamped, fun h => hnone _ h (.inl rfl), fun h => hnone _ h (.inr rfl)⟩

-- ---------------------------------------------------------------------------
-- Runs of `signPdf`
-- ---------------------------------------------------------------------------

theorem new_tsa {forge : SigningForge} {input : PemSignerInput} {signer : PemSigner}
    (h : PemSigner.new forge input = .ok signer) : signer.tsa = input.tsa := by
  unfold PemSigner.new at h
  split at h
  next signer _ =>
    split at h
    · cases h
    · split at h
      · cases h
      · obtain ⟨certificate, -, h⟩ := bind_eq_ok.mp h
        split at h
        · cases h
        · split at h
          · cases h
          · cases h
            rfl
  · split at h
    · cases h
    · cases h
    · obtain ⟨key, -, h⟩ := bind_eq_ok.mp h
      obtain ⟨certificate, -, h⟩ := bind_eq_ok.mp h
      cases h
      rfl

theorem sign_stamped {forge : SigningForge} {signer : PemSigner} {run : SigningRun} {time : Int}
    {content : Bytes} {signature : PemSignature}
    (h : signer.sign forge run.nonceBytes time content = .ok signature)
    (hstamped : signature.lastTimestamped = true) :
    ∃ tsa sigValue token, signer.tsa = some tsa ∧
      Stamped forge run tsa signature sigValue token := by
  unfold PemSigner.sign at h
  obtain ⟨p7, hp7, h⟩ := bind_eq_ok.mp h
  obtain ⟨⟨resigned, sigValue⟩, hresigned, h⟩ := bind_eq_ok.mp h
  dsimp only at h
  split at h
  · obtain ⟨der, -, h⟩ := bind_eq_ok.mp h
    cases h
    cases hstamped
  next tsa htsa =>
    split at h
    next tree htree =>
      obtain ⟨der, hder, h⟩ := bind_eq_ok.mp h
      cases h
      obtain ⟨token, htoken, hsplice⟩ := bind_eq_ok.mp htree
      exact ⟨tsa, sigValue, token, htsa, htoken, signer, content, time, p7, resigned, tree,
        mapError_eq_ok.mp hp7, hresigned, hsplice, mapError_eq_ok.mp hder⟩
    next e _ =>
      split at h
      · cases h
      · obtain ⟨der, -, h⟩ := bind_eq_ok.mp h
        cases h
        cases hstamped

end

section
variable {composed : Bytes → Option Asn1} {lib : SigningLibrary} {forge : SigningForge}
  {run : SigningRun} {input : SignPdfInput} {result : SignPdfResult}

theorem signPdf_parts (h : signPdf lib forge run input = .ok result) :
    ∃ s, signedParts lib forge run input = .ok s ∧ result.signedPdf = s.signed ∧
      result.timestamped = s.signature.lastTimestamped := by
  obtain ⟨s, hs, h⟩ := bind_eq_ok.mp h
  obtain ⟨-, -, h⟩ := bind_eq_ok.mp h
  cases h
  exact ⟨s, hs, rfl, rfl⟩

theorem signedParts_stamped {s : SignedParts} (h : signedParts lib forge run input = .ok s)
    (hstamped : s.signature.lastTimestamped = true) :
    ∃ tsa sigValue token, input.tsa = some tsa ∧ Stamped forge run tsa s.signature sigValue token := by
  have hsigned : ∃ signer : PemSigner, ∃ time content, signer.tsa = input.tsa ∧
      signer.sign forge run.nonceBytes time content = .ok s.signature := by
    unfold signedParts at h
    dsimp only at h
    split at h
    · cases h
    split at h
    · cases h
    -- with a supported subfilter or with none, the rest is the same
    split at h
    any_goals split at h
    any_goals cases h; done
    all_goals
      obtain ⟨sealedPdf, -, h⟩ := bind_eq_ok.mp h
      obtain ⟨withPlaceholder, -, h⟩ := bind_eq_ok.mp h
      obtain ⟨signer, hsigner, h⟩ := bind_eq_ok.mp h
      obtain ⟨prepared, -, h⟩ := bind_eq_ok.mp h
      obtain ⟨signature, hsign, h⟩ := bind_eq_ok.mp h
      cases h
      exact ⟨signer, _, _, new_tsa (mapError_eq_ok.mp hsigner), mapError_eq_ok.mp hsign⟩
  obtain ⟨signer, time, content, htsa, hsign⟩ := hsigned
  obtain ⟨tsa, sigValue, token, hsome, hfrom⟩ := sign_stamped hsign hstamped
  exact ⟨tsa, sigValue, token, htsa ▸ hsome, hfrom⟩

/-- A reported time stamp is one for this document if and only if the response brought
one: the token of every granted response is embedded. -/
theorem signPdf_timestampBound_iff (hforge : Rereads forge composed)
    (h : signPdf lib forge run input = .ok result) (hstamped : result.timestamped = true) :
    ∃ s tsa sigValue token, signedParts lib forge run input = .ok s ∧ input.tsa = some tsa ∧
      Stamped forge run tsa s.signature sigValue token ∧
        (TimestampBound forge.toForge result.signedPdf s.signature.der ↔
          s.prepared.Leads s.signature.der ∧ StampFor forge.toForge composed token sigValue) := by
  obtain ⟨s, hs, hpdf, htimestamped⟩ := signPdf_parts h
  obtain ⟨tsa, sigValue, token, htsa, hfrom⟩ := signedParts_stamped hs (htimestamped ▸ hstamped)
  refine ⟨s, tsa, sigValue, token, hs, htsa, hfrom, ?_⟩
  obtain ⟨signer, content, time, p7, resigned, tree, hp7, hresigned, hsplice, hder⟩ := hfrom.written
  obtain ⟨ts, hts, hpresent, hvalue, himprint⟩ := inspectTimestamp_stamped hforge hresigned hsplice
  obtain ⟨-, attrs, -, -, hresignedEq⟩ := resigned_children hresigned
  obtain ⟨-, -, htree⟩ := bind_eq_ok.mp hsplice
  obtain ⟨cert, certs, hcerts⟩ := hforge.certificates _ _ _ _ hp7
    (resignedChildren attrs sigValue) (· ++ [timestampAttrs forge token])
  have htreeEq : (p7.mapSignerInfo (resignedChildren attrs sigValue)).mapSignerInfo
      (· ++ [timestampAttrs forge token]) = tree := by
    rw [← hresignedEq]
    exact Except.ok.inj htree
  rw [htreeEq] at hcerts
  have hbound : ∀ l, locatePkcs7 result.signedPdf = .ok l → l.pkcs7Der = s.signature.der →
      (TimestampBound forge.toForge result.signedPdf s.signature.der ↔
        StampFor forge.toForge composed token sigValue) := by
    intro l hl hlder
    rw [← hlder] at hder ⊢
    rw [timestampBound_located hl (hforge.fromDer _ _ hder) hcerts hts hpresent hvalue, himprint]
    rfl
  rw [hpdf, SignedParts.signed] at hbound ⊢
  constructor
  · intro hb
    obtain ⟨l, hl, hlder⟩ := hb.located
    exact ⟨located_iff.mp hb.located, (hbound l hl hlder).mp hb⟩
  · rintro ⟨hleads, hstamp⟩
    obtain ⟨l, hl, hlder⟩ := located_iff.mpr hleads
    exact (hbound l hl hlder).mpr hstamp

end

-- ---------------------------------------------------------------------------
-- Two responses
-- ---------------------------------------------------------------------------

namespace SignSample
open EsigSuite.Sample (hexBytes)

/-- A placeholder of 1000 bytes. -/
def large : Sample where
  prepared :=
    { head := hexBytes 43 0x255044462d312e370a3c3c2f4279746552616e67655b30203433203230343520395d2f436f6e74656e7473
      digits := 2000
      tail := EsigSuite.Sample.after
      length_lt := by decide +kernel }
  contentDigest := hexBytes 32 0x71b9e0f987611451962ac5ac129948abe933074e44a6ddf3377851c6730c472e
  attributesDigest :=
    hexBytes 32 0xc9bc1b1a85b4955ae84226fe0520a8cabcce5c621821acb36d0d4adc1412339a
  signatureValue :=
    hexBytes 32 0x7907a341c8681ea6929de8c9436efeddf997a4606ab5990ac4aa37f90aeb7dda ++
      hexBytes 32 0x649df5574d45b194fdb489972bfbd93668e56ce52a4ac933bc29207c770a961f
  signatureDigest :=
    hexBytes 32 0x0b6ca241108712660c0f57774359507352fcb93c1a6dd5f1f7fffabcf8847e5b

/-- A node-forge that writes DER and reads it back. -/
def derForge : SigningForge where
  toForge := { large.forge.toForge with
    fromDer := Der.decode
    toDer := fun node =>
      if Der.WellFormed node ∧ (Der.encode node).length < 2 ^ 31 then .ok (Der.encode node)
      else .error "unsupported node" }
  oidToDer := oidToDer
  integerToDer := large.forge.integerToDer
  certificateFromPem := large.forge.certificateFromPem
  privateKeyFromPem := large.forge.privateKeyFromPem
  signedData := large.forge.signedData

theorem derForge_rereads : Rereads derForge Der.composed where
  fromDer node der h := by
    have hder : (if Der.WellFormed node ∧ (Der.encode node).length < 2 ^ 31 then
        .ok (Der.encode node) else .error "unsupported node" : Except String Bytes) = .ok der := h
    split at hder
    next hwf =>
      cases hder
      exact Der.decode_encode hwf.1 hwf.2
    · cases hder
  derToOid := by decide +kernel
  certificates _ _ _ _ _ _ _ := ⟨_, _, rfl⟩

/-- A granted response whose token is about this digest. -/
def response (imprint : Bytes) : Bytes :=
  let info := sequence [integer 1, .primitive UNIVERSAL OID [0x2a, 0x03, 0x04],
    sequence [algorithm OID_SHA256, octets imprint], integer 7,
    .primitive UNIVERSAL GENERALIZEDTIME (ascii "20261119000001Z")]
  let signedData := sequence [integer 3, setOf [algorithm OID_SHA256],
    sequence [oidNode OID_TST_INFO, .constructed CONTEXT_SPECIFIC 0 [octets (Der.encode info)]],
    setOf []]
  Der.encode (sequence [sequence [integer 0],
    sequence [oidNode OID_SIGNED_DATA, .constructed CONTEXT_SPECIFIC 0 [signedData]]])

def stampedInput (imprint : Bytes) : SignPdfInput :=
  Sample.input 1000 (some { fetch := fun _ => .ok (response imprint), required := true })

def stampedRun (imprint : Bytes) : Except SignPdfError SignPdfResult :=
  signPdf large.library derForge Sample.run (stampedInput imprint)

def Failure.isMismatch : Failure → Bool
  | .timestampMismatch => true
  | _ => false

/-- What the two runs give. -/
theorem stampedRun_checked :
    (((stampedRun large.signatureDigest).toOption.any fun result =>
      result.timestamped && (verifyPdfStructure derForge.toForge result.signedPdf).ok) = true) ∧
    ((stampedRun (List.replicate 32 0)).toOption.any fun result =>
      result.timestamped &&
        (verifyPdfStructure derForge.toForge result.signedPdf).failures.any Failure.isMismatch) =
          true := by
  decide +kernel

theorem stampedRun_right : ∃ result, stampedRun large.signatureDigest = .ok result ∧
    result.timestamped = true ∧
      (verifyPdfStructure derForge.toForge result.signedPdf).ok = true := by
  obtain ⟨result, hresult, hcheck⟩ := (Option.any_eq_true _ _).mp stampedRun_checked.1
  rw [Bool.and_eq_true] at hcheck
  exact ⟨result, toOption_eq_some.mp hresult, hcheck⟩

/-- A token about a digest of zeros. -/
theorem stampedRun_wrong : ∃ result, stampedRun (List.replicate 32 0) = .ok result ∧
    result.timestamped = true ∧
      .timestampMismatch ∈ (verifyPdfStructure derForge.toForge result.signedPdf).failures := by
  obtain ⟨result, hresult, hcheck⟩ := (Option.any_eq_true _ _).mp stampedRun_checked.2
  rw [Bool.and_eq_true] at hcheck
  obtain ⟨failure, hmem, hmismatch⟩ := List.any_eq_true.mp hcheck.2
  have hfailure : failure = .timestampMismatch := by
    cases failure <;> first | rfl | cases hmismatch
  exact ⟨result, toOption_eq_some.mp hresult, hcheck.1, hfailure ▸ hmem⟩

end SignSample

theorem signPdf_timestampBound_sample : ∃ result,
    SignSample.stampedRun SignSample.large.signatureDigest = .ok result ∧
    ∃ s tsa sigValue token, signedParts SignSample.large.library SignSample.derForge
        SignSample.Sample.run (SignSample.stampedInput SignSample.large.signatureDigest) = .ok s ∧
      (SignSample.stampedInput SignSample.large.signatureDigest).tsa = some tsa ∧
      Stamped SignSample.derForge SignSample.Sample.run tsa s.signature sigValue token ∧
        (TimestampBound SignSample.derForge.toForge result.signedPdf s.signature.der ↔
          s.prepared.Leads s.signature.der ∧
            StampFor SignSample.derForge.toForge Der.composed token sigValue) := by
  obtain ⟨result, hresult, hstamped, -⟩ := SignSample.stampedRun_right
  exact ⟨result, hresult, signPdf_timestampBound_iff SignSample.derForge_rereads hresult hstamped⟩

/-- The token of a granted response for another digest is embedded and reported. -/
theorem wrong_token_reported : ¬ ∀ lib forge run input result,
    signPdf lib forge run input = .ok result → result.timestamped = true →
      .timestampMismatch ∉ (verifyPdfStructure forge.toForge result.signedPdf).failures := by
  intro h
  obtain ⟨result, hresult, hstamped, hmismatch⟩ := SignSample.stampedRun_wrong
  exact h _ _ _ _ result hresult hstamped hmismatch

end EsigSuite.SignPdf

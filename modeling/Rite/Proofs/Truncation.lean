import Rite.Proofs.ImageRoundTrip

/-!
# Images cut short and images with something behind them

An assembled image that is cut off anywhere is either refused as a truncated input or, where the cut
falls between two sections, loaded with the records of the sections that are complete.  No other error
is possible, and no record is lost without a note: the declared total size gives the cut away.

The argument is about readings in general.  A reading *starves* if, cut off anywhere before the end of
a string it accepts, it reports a truncated input.  Taking a number of bytes starves, sequencing keeps
it, and so every reading below the level of sections has it.  Sections do not starve, since the end of
the input is a legitimate end for them; what they do with a cut is an induction on the parts.
-/

namespace Rite

namespace Reading

variable {α β : Type}

/-! ## Starving -/

/-- The outcome is a truncated input. -/
def Truncated (outcome : EStateM.Result LoadError Cursor α) : Prop :=
  ∃ offset needed available c', outcome = .error (.truncatedInput offset needed available) c'

/-- Whatever `r` accepts as a whole, it reports any proper prefix of it as truncated. -/
def Starves (r : Reading α) : Prop :=
  ∀ base b x, r ⟨base, b⟩ = .ok x ⟨base + b.length, []⟩ →
    ∀ p, p <+: b → p ≠ b → Truncated (r ⟨base, p⟩)

theorem Truncated.bind {r : Reading α} {c : Cursor} (h : Truncated (r c)) (f : α → Reading β) :
    Truncated ((r >>= f) c) := by
  obtain ⟨offset, needed, available, c', h⟩ := h
  refine ⟨offset, needed, available, c', ?_⟩
  change EStateM.bind r f c = _
  unfold EStateM.bind
  rw [h]

/-- A prefix of two strings ends inside the first of them, or holds it and a prefix of the second. -/
theorem prefix_append_cases {p b₁ b₂ : Bytes} (h : p <+: b₁ ++ b₂) :
    (p <+: b₁ ∧ p ≠ b₁) ∨ ∃ p₂, p = b₁ ++ p₂ ∧ p₂ <+: b₂ := by
  by_cases hfirst : p <+: b₁ ∧ p ≠ b₁
  · exact .inl hfirst
  · right
    have hwhole : b₁ <+: p := by
      rcases List.prefix_or_prefix_of_prefix h (List.prefix_append b₁ b₂) with hp | hp
      · have hsame : p = b₁ := by
          by_contra hne
          exact hfirst ⟨hp, hne⟩
        exact hsame ▸ List.prefix_rfl
      · exact hp
    obtain ⟨p₂, rfl⟩ := hwhole
    exact ⟨p₂, rfl, (List.prefix_append_right_inj b₁).mp h⟩

/-- A reading that takes no bytes has nothing that could be cut off. -/
theorem Reads.starves_of_nil {r : Reading α} {G : Nat → Bytes → α → Prop} (h : Reads r G)
    (hnil : ∀ base b x, G base b x → b = []) : Starves r := by
  intro base b x hok p hp hne
  obtain ⟨b', rest, rfl, hc, hG⟩ := (h base b x _).mp hok
  obtain rfl := hnil base b' x hG
  obtain rfl : rest = [] := (Cursor.mk.inj hc).2.symm
  exact absurd (List.prefix_nil.mp hp) hne

theorem starves_pure (x : α) : Starves (pure x) :=
  (reads_pure x).starves_of_nil fun _ _ _ h => h.1

theorem starves_offset : Starves offset :=
  reads_offset.starves_of_nil fun _ _ _ h => h.1

theorem starves_throw (e : LoadError) : Starves (throw e : Reading α) :=
  (reads_throw e).starves_of_nil fun _ _ _ h => h.elim

/-- Bytes that are not there cannot be taken. -/
theorem truncated_take {n base : Nat} {p : Bytes} (h : p.length < n) :
    Truncated (take n ⟨base, p⟩) := by
  have hshort : ¬ (⟨base, p⟩ : Cursor).holds n = true := by
    intro hholds
    have hle : n ≤ p.length := (Cursor.holds_iff _ _).mp hholds
    omega
  refine ⟨base, n, p.length, ⟨base, p⟩, ?_⟩
  unfold Reading.take
  rw [if_neg hshort]
  rfl

/-- A proper prefix is shorter. -/
theorem length_lt_of_cut {p b : Bytes} (hp : p <+: b) (hne : p ≠ b) : p.length < b.length :=
  lt_of_le_of_ne hp.length_le fun hlen => hne (hp.eq_of_length hlen)

theorem starves_take (n : Nat) : Starves (take n) := by
  intro base b x hok p hp hne
  obtain ⟨b', rest, rfl, hc, hlen, _⟩ := (reads_take n base b x _).mp hok
  obtain rfl : rest = [] := (Cursor.mk.inj hc).2.symm
  rw [List.append_nil] at hp hne
  apply truncated_take
  rw [← hlen]
  exact length_lt_of_cut hp hne

/-- **Sequencing.**  A cut falls into the first part or into the second. -/
theorem Starves.bind {r : Reading α} {f : α → Reading β} {G : Nat → Bytes → α → Prop}
    (hr : Starves r) (hreads : Reads r G) (hf : ∀ x, Starves (f x)) : Starves (r >>= f) := by
  intro base b y hok p hp hne
  obtain ⟨x, c', hfirst, hsecond⟩ := (bind_eq_ok_iff _ _ _ _ _).mp hok
  obtain ⟨b₁, b₂, rfl, rfl, hG⟩ := (hreads base b x c').mp hfirst
  rcases prefix_append_cases hp with ⟨hp₁, hne₁⟩ | ⟨p₂, rfl, hp₂⟩
  · have hwhole := hreads.accepts hG []
    rw [List.append_nil] at hwhole
    exact (hr base b₁ x hwhole p hp₁ hne₁).bind f
  · rw [bind_of_ok (hreads.accepts hG p₂)]
    rw [List.length_append, ← Nat.add_assoc] at hsecond
    apply hf x _ b₂ y hsecond p₂ hp₂
    rintro rfl
    exact hne rfl

theorem starves_u8 : Starves u8 :=
  (starves_take 1).bind (reads_take 1) fun _ => starves_pure _

theorem starves_u16 : Starves u16 :=
  (starves_take 2).bind (reads_take 2) fun _ => starves_pure _

theorem starves_skip (n : Nat) : Starves (skip n) :=
  (starves_take n).bind (reads_take n) fun _ => starves_pure _

theorem starves_text (n : Nat) : Starves (text n) :=
  (starves_take n).bind (reads_take n) fun _ => starves_pure _

theorem Starves.times {item : Reading α} {G : Nat → Bytes → α → Prop} (h : Starves item)
    (hreads : Reads item G) (n : Nat) : Starves (times n item) := by
  induction n with
  | zero => exact starves_pure _
  | succ n ih => exact h.bind hreads fun _ => ih.bind (hreads.times n) fun _ => starves_pure _

/-! ## Records -/

theorem starves_textBody (size : UInt16) :
    Starves (do let s ← text size.toNat; skip 1; return s) :=
  (starves_text _).bind (reads_text _) fun _ =>
    (starves_skip 1).bind (reads_skip 1) fun _ => starves_pure _

theorem starves_symbol : Starves symbol :=
  starves_u16.bind reads_u16 fun size => starves_textBody size

theorem starves_literal : Starves literal := by
  refine starves_offset.bind reads_offset fun start => starves_u8.bind reads_u8 fun kind =>
    starves_u16.bind reads_u16 fun size => ?_
  -- The kind is judged only once the length is there, so a cut in front of it is not mistaken.
  split
  · exact (starves_throw _).bind (reads_throw _) fun _ => starves_textBody size
  · exact starves_textBody size

theorem starves_literalPool : Starves literalPool :=
  starves_u16.bind reads_u16 fun count => starves_literal.times reads_literal count.toNat

theorem starves_symbolTable : Starves symbolTable :=
  starves_u16.bind reads_u16 fun count => starves_symbol.times reads_symbol count.toNat

theorem starves_recordHead : Starves recordHead := by
  rw [recordHead_eq]
  exact (starves_take _).bind (reads_take _) fun _ => starves_pure _

/-- Code is decoded after all of its bytes have been taken, so a cut is never a code overrun. -/
theorem starves_code (size : Nat) : Starves (code size) :=
  starves_offset.bind reads_offset fun start => (starves_take size).bind (reads_take size)
    fun bytes => (reads_scanned bytes start size).starves_of_nil fun _ _ _ h => h.1

theorem starves_recordWithin (depth : Nat) : Starves (recordWithin depth) := by
  induction depth with
  | zero =>
    intro base b x hok
    cases hok
  | succ depth ih =>
    exact starves_offset.bind reads_offset fun _ => starves_recordHead.bind reads_recordHead
      fun head => (starves_code _).bind (reads_code _) fun _ => starves_literalPool.bind
      reads_literalPool fun _ => starves_symbolTable.bind reads_symbolTable fun _ =>
      starves_offset.bind reads_offset fun _ => (ih.times (reads_recordWithin depth) _).bind
      ((reads_recordWithin depth).times _) fun _ => starves_pure _

/-- `r` does what `r'` does, or reports a truncated input. -/
def Curbs (r r' : Reading α) : Prop := ∀ c, r c = r' c ∨ Truncated (r c)

theorem Curbs.refl (r : Reading α) : Curbs r r := fun _ => .inl rfl

theorem Curbs.bind {r r' : Reading α} {f f' : α → Reading β} (hr : Curbs r r')
    (hf : ∀ x, Curbs (f x) (f' x)) : Curbs (r >>= f) (r' >>= f') := by
  intro c
  rcases hr c with hsame | hcut
  · change EStateM.bind r f c = EStateM.bind r' f' c ∨ Truncated (EStateM.bind r f c)
    unfold EStateM.bind
    rw [hsame]
    cases r' c with
    | ok x c' => exact hf x c'
    | error e c' => exact .inl rfl
  · exact .inr (hcut.bind f)

theorem Curbs.times {item item' : Reading α} (h : Curbs item item') (n : Nat) :
    Curbs (times n item) (times n item') := by
  induction n with
  | zero => exact .refl _
  | succ n ih => exact h.bind fun _ => ih.bind fun _ => .refl _

/-- A smaller bound on the depth can only turn an outcome into a truncated input. -/
theorem curbs_recordWithin {depth depth' : Nat} (h : depth ≤ depth') :
    Curbs (recordWithin depth) (recordWithin depth') := by
  induction depth generalizing depth' with
  | zero => exact fun c => .inr ⟨c.offset, Format.recordHeaderSize, c.remaining, c, rfl⟩
  | succ depth ih =>
    obtain ⟨depth', rfl⟩ : ∃ k, depth' = k + 1 := ⟨depth' - 1, by omega⟩
    have hchild : Curbs (recordWithin depth) (recordWithin depth') := ih (by omega)
    exact Curbs.bind (.refl _) fun _ => Curbs.bind (.refl _) fun head => Curbs.bind (.refl _)
      fun _ => Curbs.bind (.refl _) fun _ => Curbs.bind (.refl _) fun _ => Curbs.bind (.refl _)
      fun _ => (hchild.times head.childCount).bind fun _ => .refl _

/-- The bound on the depth is the number of bytes that are left, so it is smaller for a prefix. -/
theorem starves_record : Starves record := by
  intro base b x hok p hp hne
  have hwhole : Truncated (recordWithin b.length ⟨base, p⟩) :=
    starves_recordWithin b.length base b x hok p hp hne
  change Truncated (recordWithin p.length ⟨base, p⟩)
  rcases curbs_recordWithin hp.length_le ⟨base, p⟩ with hsame | hcut
  · rw [hsame]
    exact hwhole
  · exact hcut

/-! ## Sections -/

open Format BigEndian

/-- A cut in the header of a section. -/
theorem truncated_sectionHeader {rounds base : Nat} {p : Bytes} (hne : p ≠ [])
    (hlen : p.length < sectionHeaderSize) : Truncated (sectionsWithin (rounds + 1) ⟨base, p⟩) := by
  have hend : atEnd ⟨base, p⟩ = .ok false ⟨base, p⟩ := by
    change EStateM.Result.ok _ _ = _
    simp [Cursor.atEnd, hne]
  rw [sectionsWithin, bind_of_ok hend, if_neg Bool.false_ne_true, bind_of_ok (offset_eq _),
    sectionHead_eq]
  exact ((truncated_take hlen).bind _).bind _

/-- A cut in a section: in its header or in what follows it. -/
theorem truncated_section {rounds base : Nat} {name payload p : Bytes} {declared : UInt32}
    (hname : name.length = 4) (hp : p <+: name ++ word32 declared ++ payload) (hnil : p ≠ [])
    (hne : p ≠ name ++ word32 declared ++ payload)
    (hpayload : ∀ q, q <+: payload → q ≠ payload →
      Truncated (sectionsWithin (rounds + 1) ⟨base, name ++ word32 declared ++ q⟩)) :
    Truncated (sectionsWithin (rounds + 1) ⟨base, p⟩) := by
  rcases prefix_append_cases hp with ⟨hhead, hshort⟩ | ⟨q, rfl, hq⟩
  · apply truncated_sectionHeader hnil
    have hlen := length_lt_of_cut hhead hshort
    rw [List.length_append, hname, length_word32] at hlen
    exact hlen
  · apply hpayload q hq
    rintro rfl
    exact hne rfl

/-- The format tag and the tree behind the header of a record section. -/
theorem starves_taggedRecord : Starves (discard tag >>= fun _ => record) :=
  (starves_skip 4).bind (reads_skip 4) fun _ => starves_record

end Reading

/-! ## Parts -/

namespace Part

open Reading Format BigEndian

/-- **One section.**  A storable part that is cut off is a truncated input. -/
theorem truncated_of_cut {part : Part} (h : part.Storable) (hsize : part.encode.length < 2 ^ 32)
    {p : Bytes} (hp : p <+: part.encode) (hnil : p ≠ []) (hne : p ≠ part.encode)
    (rounds base : Nat) : Truncated (sectionsWithin (rounds + 1) ⟨base, p⟩) := by
  cases part with
  | record draft =>
    refine truncated_section rfl hp hnil hne fun q hq hqne => ?_
    rw [length_encode_record] at hsize
    have htree := RecordDraft.recordWithin_encode h (by omega) (Nat.le_refl _) (base + 12)
    have hwhole : (discard tag >>= fun _ => Reading.record) ⟨base + 8, recordFormat ++ draft.encode⟩ =
        .ok (draft.toRecord, []) ⟨base + 8 + (recordFormat ++ draft.encode).length, []⟩ := by
      have htag : discard tag ⟨base + 8, recordFormat ++ draft.encode⟩ =
          .ok () ⟨base + 12, draft.encode⟩ :=
        (reads_skip 4).accepts (show recordFormat.length = 4 from rfl) _
      have hrecord := reads_record.accepts ⟨_, htree⟩ []
      rw [List.append_nil] at hrecord
      rw [bind_of_ok htag, hrecord, List.length_append, show recordFormat.length = 4 from rfl,
        show base + 8 + (4 + draft.encode.length) = base + 12 + draft.encode.length by omega]
    have hcut := starves_taggedRecord _ _ _ hwhole q hq hqne
    rw [sectionsWithin_header rounds base rfl, if_pos rfl]
    -- What follows the tree does not matter any more.
    have hmore := hcut.bind fun x => do
      let stop ← offset
      let y ← sectionsWithin rounds
      return (x.1 :: y.1, x.2 ++ noteUnless (UInt32.ofNat (sectionHeaderSize +
        (recordFormat ++ draft.encode).length)).toNat (stop - base) (.sectionSize base
        (UInt32.ofNat (sectionHeaderSize + (recordFormat ++ draft.encode).length)).toNat
        (stop - base)) ++ y.2)
    rwa [bind_assoc] at hmore
  | other tag payload =>
    obtain rfl : tag = localsSection := h
    refine truncated_section rfl hp hnil hne fun q hq hqne => ?_
    have hpayload : payload.length < 2 ^ 32 := by
      simp only [encode, List.length_append] at hsize
      omega
    have hlen := length_lt_of_cut hq hqne
    rw [sectionsWithin_header rounds base rfl, if_neg (by decide), if_pos rfl]
    apply Truncated.bind
    have hshort : q.length < (UInt32.ofNat payload.length).toNat := by
      rw [UInt32.toNat_ofNat']
      omega
    exact (truncated_take hshort).bind _

/-- A cut behind a storable part is met after the part has been read. -/
theorem truncated_behind {part : Part} (h : part.Storable) (hsize : part.encode.length < 2 ^ 32)
    {rounds base : Nat} {rest : Bytes}
    (hrest : Truncated (sectionsWithin rounds ⟨base + part.encode.length, rest⟩)) :
    Truncated (sectionsWithin (rounds + 1) ⟨base, part.encode ++ rest⟩) := by
  cases part with
  | record draft =>
    rw [length_encode_record] at hsize hrest
    have htree := RecordDraft.recordWithin_encode h (by omega) (Nat.le_refl _) (base + 12)
    have htag : discard tag ⟨base + 8, recordFormat ++ (draft.encode ++ rest)⟩ =
        .ok () ⟨base + 12, draft.encode ++ rest⟩ :=
      (reads_skip 4).accepts (show recordFormat.length = 4 from rfl) _
    rw [← Nat.add_assoc] at hrest
    simp only [encode, List.append_assoc]
    rw [← List.append_assoc recordSection, sectionsWithin_header rounds base rfl, if_pos rfl,
      bind_of_ok htag, bind_of_ok (reads_record.accepts ⟨_, htree⟩ rest), bind_of_ok (offset_eq _)]
    exact hrest.bind _
  | other tag payload =>
    obtain rfl : tag = localsSection := h
    have hpayload : payload.length = (UInt32.ofNat payload.length).toNat := by
      simp only [encode, List.length_append] at hsize
      rw [UInt32.toNat_ofNat']
      omega
    have hskip : skip (UInt32.ofNat payload.length).toNat ⟨base + 8, payload ++ rest⟩ = .ok () _ :=
      (reads_skip _).accepts hpayload rest
    have hbehind : base + (encode (.other localsSection payload)).length =
        base + 8 + payload.length := by
      simp only [encode, List.length_append, length_word32, show localsSection.length = 4 from rfl]
      omega
    rw [hbehind] at hrest
    simp only [encode, List.append_assoc]
    rw [← List.append_assoc localsSection, sectionsWithin_header rounds base rfl,
      if_neg (by decide), if_pos rfl, bind_of_ok hskip]
    exact hrest

end Part

namespace ImageDraft

open Reading Format BigEndian

/-- **A row of sections.**  Storable parts with an end section behind them, cut off anywhere but at
the end of a part, are a truncated input. -/
theorem truncated_parts {parts : List Part} (h : ∀ part ∈ parts, part.Storable)
    (hsize : (parts.flatMap Part.encode).length < 2 ^ 32) {p : Bytes}
    (hp : p <+: parts.flatMap Part.encode ++ endBytes)
    (hne : p ≠ parts.flatMap Part.encode ++ endBytes)
    (hcut : ∀ k ≤ parts.length, p.length ≠ ((parts.take k).flatMap Part.encode).length)
    {rounds : Nat} (hrounds : p.length ≤ rounds) (base : Nat) :
    Truncated (sectionsWithin rounds ⟨base, p⟩) := by
  induction parts generalizing p rounds base with
  | nil =>
    have hpos : p.length ≠ 0 := hcut 0 (Nat.le_refl 0)
    obtain ⟨rounds, rfl⟩ : ∃ n, rounds = n + 1 := ⟨rounds - 1, by omega⟩
    exact truncated_sectionHeader (fun hnil => hpos (by rw [hnil]; rfl)) (length_lt_of_cut hp hne)
  | cons part parts ih =>
    have hpos : p.length ≠ 0 := hcut 0 (Nat.zero_le _)
    obtain ⟨rounds, rfl⟩ : ∃ n, rounds = n + 1 := ⟨rounds - 1, by omega⟩
    rw [List.flatMap_cons, List.length_append] at hsize
    rw [List.flatMap_cons, List.append_assoc] at hp hne
    have hpart := h part (by simp)
    rcases prefix_append_cases hp with ⟨hinside, hshort⟩ | ⟨q, rfl, hq⟩
    · exact Part.truncated_of_cut hpart (by omega) hinside (fun hnil => hpos (by rw [hnil]; rfl))
        hshort rounds base
    · apply Part.truncated_behind hpart (by omega)
      have hstored : 0 < part.encode.length := by
        cases part <;> simp [Part.encode]
      rw [List.length_append] at hrounds
      apply ih (fun part' hmem => h part' (by simp [hmem])) (by omega) hq
      · rintro rfl
        exact hne rfl
      · intro k hk heq
        apply hcut (k + 1) (by simpa using hk)
        rw [List.take_succ_cons, List.flatMap_cons, List.length_append, List.length_append, heq]
      · omega

/-! ## Images -/

/-- The length of an image that is cut off behind its first `k` parts. -/
def boundary (d : ImageDraft) (k : Nat) : Nat :=
  headerSize + ((d.parts.take k).flatMap Part.encode).length

/-- The twenty bytes in front of the sections. -/
def headerBytes (d : ImageDraft) : Bytes :=
  magic ++ (version ++ (word32 (UInt32.ofNat (headerSize + d.bodyBytes.length)) ++ compiler))

theorem toBytes_eq (d : ImageDraft) : d.toBytes = d.headerBytes ++ d.bodyBytes := by
  simp only [toBytes, headerBytes, List.append_assoc]

theorem length_headerBytes (d : ImageDraft) : d.headerBytes.length = headerSize := rfl

/-- Another body behind the header of a draft: its records are loaded, and the one thing to be noted is
the total size. -/
theorem ofBytes_header_append {d : ImageDraft} (hsize : d.toBytes.length < 2 ^ 32) {body : Bytes}
    {roots : List Record} (hbody : SectionsAt headerSize body roots [])
    (hother : body.length ≠ d.bodyBytes.length) :
    ∃ image, Image.ofBytes (d.headerBytes ++ body) = .ok image ∧ image.records = roots ∧
      image.diagnostics = [.totalSize d.toBytes.length (headerSize + body.length)] := by
  have hversion : version = word16 0x3033 ++ word16 0x3030 := by decide
  have hlen : (d.headerBytes ++ body).length = headerSize + body.length := by
    rw [List.length_append, length_headerBytes]
  have hnote : d.toBytes.length ≠ headerSize + body.length := by
    rw [length_toBytes]
    omega
  refine ⟨{ d.toImage with
    records := roots
    diagnostics := [.totalSize d.toBytes.length (headerSize + body.length)] }, ?_, rfl, rfl⟩
  rw [Image.ofBytes_eq_ok_iff]
  refine ⟨body, [], ?_, rfl, rfl, hbody, ?_⟩
  · simp only [headerBytes, hversion, toImage, List.append_assoc]
    rfl
  · show _ = noteUnless d.toImage.totalSize.toNat _ (.totalSize d.toImage.totalSize.toNat _) ++ []
    rw [toNat_totalSize hsize, hlen, noteUnless, if_neg hnote]
    rfl

/-- A cut in the header of an image. -/
theorem truncated_header {d : ImageDraft} {p : Bytes} (hp : p <+: d.headerBytes)
    (hne : p ≠ d.headerBytes) : Truncated (Reading.image ⟨0, p⟩) := by
  have hlen := length_lt_of_cut hp hne
  unfold Reading.image
  rw [bind_of_ok (get_eq _)]
  rcases prefix_append_cases hp with ⟨hmagic, hshort⟩ | ⟨q, rfl, hq⟩
  · exact (truncated_take (length_lt_of_cut hmagic hshort)).bind _
  · have htag : tag ⟨0, magic ++ q⟩ = .ok magic ⟨4, q⟩ := (reads_take 4).accepts ⟨rfl, rfl⟩ q
    rw [bind_of_ok htag, if_neg (not_not.mpr rfl)]
    have hshort : q.length < headerSize - 4 := by
      rw [List.length_append, length_headerBytes, show magic.length = 4 from rfl] at hlen
      omega
    rw [imageHead_eq]
    exact ((truncated_take hshort).bind _).bind _

/-- A cut among the sections of an image. -/
theorem truncated_body {d : ImageDraft} {body : Bytes}
    (h : Truncated (sectionsWithin body.length ⟨headerSize, body⟩)) :
    Truncated (Reading.image ⟨0, d.headerBytes ++ body⟩) := by
  rw [headerBytes, List.append_assoc, image_header rfl]
  exact h.bind _

/-- Up to a boundary stand the header and whole parts. -/
theorem eq_of_length_boundary {d : ImageDraft} {p : Bytes} {k : Nat} (hp : p <+: d.toBytes)
    (hlen : p.length = d.boundary k) :
    p = d.headerBytes ++ (d.parts.take k).flatMap Part.encode := by
  have hparts : d.parts.flatMap Part.encode =
      (d.parts.take k).flatMap Part.encode ++ (d.parts.drop k).flatMap Part.encode := by
    rw [← List.flatMap_append, List.take_append_drop]
  have hstart : d.headerBytes ++ (d.parts.take k).flatMap Part.encode <+: d.toBytes := by
    rw [toBytes_eq, bodyBytes, hparts, List.append_assoc]
    exact (List.prefix_append_right_inj _).mpr (List.prefix_append _ _)
  apply (List.prefix_of_prefix_length_le hp hstart (le_of_eq ?_)).eq_of_length
  all_goals rw [hlen, List.length_append, length_headerBytes, boundary]

theorem bodyBytes_closed {d : ImageDraft} (hclosed : d.closed = true) :
    d.bodyBytes = d.parts.flatMap Part.encode ++ endBytes := by
  rw [bodyBytes, if_pos hclosed]

/-- The end section stands behind the parts, and the header in front of both. -/
theorem length_parts_lt {d : ImageDraft} (hclosed : d.closed = true) :
    (d.parts.flatMap Part.encode).length < d.bodyBytes.length ∧
      d.bodyBytes.length ≤ d.toBytes.length := by
  have hend : endBytes.length = 8 := rfl
  rw [length_toBytes, bodyBytes_closed hclosed, List.length_append]
  omega

variable {d : ImageDraft} (hparts : ∀ part ∈ d.parts, part.Storable)
  (hsize : d.toBytes.length < 2 ^ 32) (hclosed : d.closed = true)

include hparts hsize hclosed

/-- At a boundary the sections end where the input does. -/
theorem ofBytes_boundary {p : Bytes} (hp : p <+: d.toBytes) {k : Nat}
    (hlen : p.length = d.boundary k) :
    ∃ image, Image.ofBytes p = .ok image ∧
      image.records = (d.parts.take k).filterMap Part.root? ∧
      image.diagnostics = [.totalSize d.toBytes.length p.length] := by
  obtain ⟨hshorter, hbound⟩ := length_parts_lt hclosed
  have hsplit : (d.parts.flatMap Part.encode).length =
      ((d.parts.take k).flatMap Part.encode).length +
        ((d.parts.drop k).flatMap Part.encode).length := by
    rw [← List.length_append, ← List.flatMap_append, List.take_append_drop]
  have hsections : SectionsAt headerSize ((d.parts.take k).flatMap Part.encode ++ [])
      ((d.parts.take k).filterMap Part.root?) [] :=
    sectionsAt_parts (fun part hmem => hparts part (List.mem_of_mem_take hmem)) (by omega)
      (fun _ => .done) _
  rw [List.append_nil] at hsections
  obtain rfl := eq_of_length_boundary hp hlen
  rw [List.length_append, length_headerBytes]
  exact ofBytes_header_append hsize hsections (by omega)

/-- Anywhere else a cut is noticed, in the header or in a section. -/
theorem ofBytes_cut {p : Bytes} (hp : p <+: d.toBytes) (hne : p ≠ d.toBytes)
    (hcut : ∀ k ≤ d.parts.length, p.length ≠ d.boundary k) :
    ∃ offset needed available,
      Image.ofBytes p = .error (.truncatedInput offset needed available) := by
  obtain ⟨hshorter, hbound⟩ := length_parts_lt hclosed
  have htruncated : Truncated (Reading.image ⟨0, p⟩) := by
    rw [toBytes_eq, bodyBytes_closed hclosed] at hp hne
    rcases prefix_append_cases hp with ⟨hheader, hshort⟩ | ⟨q, rfl, hq⟩
    · exact truncated_header hheader hshort
    · apply truncated_body
      refine truncated_parts hparts (by omega) hq (fun heq => hne (by rw [heq])) ?_ (Nat.le_refl _) _
      intro k hk heq
      apply hcut k hk
      rw [List.length_append, length_headerBytes, boundary, heq]
  obtain ⟨offset, needed, available, c', herror⟩ := htruncated
  refine ⟨offset, needed, available, ?_⟩
  unfold Image.ofBytes Cursor.start
  rw [herror]

/-- Nobody looks at what stands behind an end section. -/
theorem ofBytes_extended {t : Bytes} (ht : t ≠ []) :
    ∃ image, Image.ofBytes (d.toBytes ++ t) = .ok image ∧
      image.records = d.parts.filterMap Part.root? ∧
      image.diagnostics = [.totalSize d.toBytes.length (d.toBytes.length + t.length)] := by
  obtain ⟨hshorter, hbound⟩ := length_parts_lt hclosed
  have hpos : 0 < t.length := List.length_pos_iff.mpr ht
  have hsections : SectionsAt headerSize (d.parts.flatMap Part.encode ++ (endBytes ++ t))
      (d.parts.filterMap Part.root?) [] :=
    sectionsAt_parts hparts (by omega) (fun _ => .stop _ t) _
  rw [← List.append_assoc, ← bodyBytes_closed hclosed] at hsections
  rw [length_toBytes, Nat.add_assoc, ← List.length_append, toBytes_eq, List.append_assoc,
    ← length_toBytes]
  apply ofBytes_header_append hsize hsections
  rw [List.length_append]
  omega

end ImageDraft

/-- **Cut images and extended images.**  Take any image assembled from storable records and names of
local variables and closed by an end section.

A proper prefix of it that ends with the header or with a whole section is loaded: its records are
those of the complete sections, and the only thing noted is that the total size declared is that of
the whole image.  Every other proper prefix is refused as a truncated input.  And whatever is put
behind the image, it is loaded with all its records and the corresponding note. -/
theorem truncated_or_noted (d : ImageDraft) (hparts : ∀ part ∈ d.parts, part.Storable)
    (hsize : d.toBytes.length < 2 ^ 32) (hclosed : d.closed = true) :
    (∀ p, p <+: d.toBytes → p ≠ d.toBytes →
      (∀ k ≤ d.parts.length, p.length = d.boundary k →
        ∃ image, Image.ofBytes p = .ok image ∧
          image.records = (d.parts.take k).filterMap Part.root? ∧
          image.diagnostics = [.totalSize d.toBytes.length p.length]) ∧
      ((∀ k ≤ d.parts.length, p.length ≠ d.boundary k) →
        ∃ offset needed available,
          Image.ofBytes p = .error (.truncatedInput offset needed available))) ∧
    ∀ t, t ≠ [] →
      ∃ image, Image.ofBytes (d.toBytes ++ t) = .ok image ∧
        image.records = d.parts.filterMap Part.root? ∧
        image.diagnostics = [.totalSize d.toBytes.length (d.toBytes.length + t.length)] := by
  constructor
  · intro p hp hne
    constructor
    · intro k _ hboundary
      exact ImageDraft.ofBytes_boundary hparts hsize hclosed hp hboundary
    · intro hcut
      exact ImageDraft.ofBytes_cut hparts hsize hclosed hp hne hcut
  · intro t ht
    exact ImageDraft.ofBytes_extended hparts hsize hclosed ht

/-- A record with a nested one, names of local variables, and an end section. -/
def closedDraft : ImageDraft where
  parts :=
    [.record
      { registers := 2
        code := #[.instruction { op := .stop }]
        literals := ["é"], symbols := ["puts"]
        children := [{ code := #[.instruction { op := .stop }] }] },
      .other Format.localsSection [1, 2, 3]]

/-- Cut one byte into the names of local variables, the image is refused; cut before them, it is its
first record; with a byte behind it, it is whole. -/
theorem truncated_or_noted_closedDraft :
    (∀ part ∈ closedDraft.parts, part.Storable) ∧ closedDraft.toBytes.length < 2 ^ 32 ∧
      closedDraft.closed = true ∧
      (∃ offset needed available,
        Image.ofBytes (closedDraft.toBytes.take (closedDraft.boundary 1 + 1)) =
          .error (.truncatedInput offset needed available)) ∧
      (∃ image, Image.ofBytes (closedDraft.toBytes.take (closedDraft.boundary 1)) = .ok image ∧
        image.records = (closedDraft.parts.take 1).filterMap Part.root? ∧
        image.diagnostics = [.totalSize closedDraft.toBytes.length (closedDraft.boundary 1)]) ∧
      ∃ image, Image.ofBytes (closedDraft.toBytes ++ [0]) = .ok image ∧
        image.records = closedDraft.parts.filterMap Part.root? ∧
        image.diagnostics =
          [.totalSize closedDraft.toBytes.length (closedDraft.toBytes.length + 1)] := by
  have hparts : ∀ part ∈ closedDraft.parts, part.Storable := by
    intro part hpart
    simp only [closedDraft, List.mem_cons, List.not_mem_nil, or_false] at hpart
    rcases hpart with rfl | rfl
    · refine .intro ⟨by decide, by decide, by decide, by decide, by decide, by decide⟩ ?_
      intro c hc
      obtain rfl := List.mem_singleton.mp hc
      refine .intro ⟨by decide, by decide, by decide, by decide, by decide, by decide⟩ ?_
      intro c hc
      cases hc
    · rfl
  have hsize : closedDraft.toBytes.length < 2 ^ 32 := by decide +kernel
  have hcuts := truncated_or_noted closedDraft hparts hsize rfl
  refine ⟨hparts, hsize, rfl, ?_, ?_, hcuts.2 [0] (by decide)⟩
  · exact (hcuts.1 _ (List.take_prefix _ _) (by decide +kernel)).2 (by decide +kernel)
  · have hlen : (closedDraft.toBytes.take (closedDraft.boundary 1)).length =
        closedDraft.boundary 1 := by decide +kernel
    have hload := (hcuts.1 _ (List.take_prefix _ _) (by decide +kernel)).1 1 (by decide) hlen
    rwa [hlen] at hload

end Rite

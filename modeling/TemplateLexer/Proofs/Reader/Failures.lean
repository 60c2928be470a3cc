import TemplateLexer.Proofs.Reader.WellFormed

/-!
# Readers that fail

A reader that fails between two characters loses nothing: the next request goes on with the next
character.  One that fails within a character has lost the bytes of it that were already taken, and
each of the others is malformed.  So the answers that are no failures are the characters within
which no request fails, and then the end of the input (`Reader.answered_of_failures`).

Where a request fails is told by the number of bytes that are left then (`Reader.stops`), which
stays the same while bytes before it are read.
-/

namespace TemplateLexer

/-- Whether the request failed. -/
def Delivery.isFailed : Delivery → Bool
  | failed _ => true
  | _ => false

namespace Reader

/-! ### Torn characters -/

/-- For every request that fails and is not repeated, how many bytes are left when it does. -/
def stops : List Fill → List Nat
  | [] => []
  | .bytes _ :: script => stops script
  | .failed e :: script =>
    if e.kind = .interrupted then stops script else (rest ⟨[], script⟩).length :: stops script

/-- A request fails after the first byte of the character `c` and before the last one, when the
characters `cs` come after it. -/
def IsTorn (ns : List Nat) (c : Char) (cs : List Char) : Prop :=
  ∃ n ∈ ns, (encode cs).length < n ∧ n < (encode (c :: cs)).length

instance (ns : List Nat) (c : Char) (cs : List Char) : Decidable (IsTorn ns c cs) :=
  inferInstanceAs (Decidable (∃ n ∈ ns, _))

/-- The characters of `cs` that are not torn. -/
def untorn (ns : List Nat) : List Char → List Char
  | [] => []
  | c :: cs => if IsTorn ns c cs then untorn ns cs else c :: untorn ns cs

/-- The characters of `cs`, which the bytes of the reader encode, within which no request fails. -/
def whole (r : Reader) (cs : List Char) : List Char :=
  untorn (stops r.script) cs

theorem length_untorn_le (ns : List Nat) (cs : List Char) :
  (untorn ns cs).length ≤ cs.length
  := by
  fun_induction untorn ns cs with
  | case1 => apply Nat.le_refl
  | case2 c cs htorn ih => apply Nat.le_succ_of_le ih
  | case3 c cs htorn ih => apply Nat.succ_le_succ ih

/-- A failure before the characters tears none of them. -/
theorem untorn_cons_of_le {n : Nat} (ns : List Nat) {cs : List Char} (h : (encode cs).length ≤ n) :
  untorn (n :: ns) cs = untorn ns cs
  := by
  induction cs with
  | nil => rfl
  | cons c cs ih =>
    have hle : (encode cs).length ≤ n := by
      rw [encode_cons, List.length_append] at h
      omega
    have htorn : IsTorn (n :: ns) c cs ↔ IsTorn ns c cs := by
      simp only [IsTorn, List.mem_cons, exists_eq_or_imp]
      apply or_iff_right
      omega
    rw [untorn, untorn, ih hle]
    simp only [htorn]

/-- When a request fails, no more bytes are left than before. -/
theorem le_of_mem_stops {r : Reader} {n : Nat} (h : n ∈ stops r.script) :
  n ≤ r.rest.length
  := by
  obtain ⟨buffer, script⟩ := r
  dsimp only at h
  fun_induction stops script generalizing buffer with
  | case1 => cases h
  | case2 bs script ih =>
    have hle := ih bs h
    simp only [rest, List.flatMap_cons, List.length_append] at hle ⊢
    omega
  | case3 e script hinterrupted ih => apply ih buffer h
  | case4 e script hinterrupted ih =>
    rw [List.mem_cons] at h
    rcases h with rfl | h
    · simp [rest]
    · apply ih buffer h

/-! ### Taking bytes -/

/-- The reader takes the bytes `bs` and then fails, if there is a failure. -/
structure Takes (r : Reader) (bs : List UInt8) (failure? : Option IoError) (r' : Reader) :
    Prop where
  suffix : r'.script <:+ r.script
  rest_eq : r.rest = bs ++ r'.rest
  stops_eq : stops r.script = (failure?.map fun _ => r'.rest.length).toList ++ stops r'.script
  mem_script : ∀ e ∈ failure?, .failed e ∈ r.script ∧ e.kind ≠ .interrupted

/-- No filling reports the end of the input before it has come. -/
def IsGapless (r : Reader) : Prop :=
  ∀ bs, .bytes bs ∈ r.script → bs ≠ []

section Takes

variable {r r' r'' : Reader} {bs bs' : List UInt8} {failure? : Option IoError}

theorem Takes.trans (h : r.Takes bs none r') (h' : r'.Takes bs' failure? r'') :
  r.Takes (bs ++ bs') failure? r''
  := by
  constructor
  · apply h'.suffix.trans h.suffix
  · rw [h.rest_eq, h'.rest_eq, List.append_assoc]
  · rw [h.stops_eq, ← h'.stops_eq]
    rfl
  · intro e he
    obtain ⟨hmem, hkind⟩ := h'.mem_script e he
    exact ⟨h.suffix.subset hmem, hkind⟩

theorem Takes.isGapless (h : r.Takes bs failure? r') (hr : r.IsGapless) :
  r'.IsGapless
  := fun bs hbs => hr bs (h.suffix.subset hbs)

/-- A filling brings the next byte if there is one, or fails. -/
theorem refill_cases {script : List Fill} (h : IsGapless ⟨[], script⟩) :
  (∃ e r', refill script = (.error e, r') ∧ Takes ⟨[], script⟩ [] (some e) r')
    ∨ ∃ r', refill script = (.ok (rest ⟨[], script⟩).head?, r')
      ∧ Takes ⟨[], script⟩ (rest ⟨[], script⟩).head?.toList none r'
  := by
  fun_induction refill script with
  | case1 => exact .inr ⟨_, rfl, List.suffix_rfl, rfl, rfl, by simp⟩
  | case2 script => exact absurd rfl (h [] List.mem_cons_self)
  | case3 b bs script => exact .inr ⟨_, rfl, List.suffix_cons _ _, rfl, rfl, by simp⟩
  | case4 e script hinterrupted ih =>
    have hskip : Takes ⟨[], .failed e :: script⟩ [] none ⟨[], script⟩ := by
      refine ⟨List.suffix_cons _ _, rfl, ?_, by simp⟩
      rw [stops, if_pos hinterrupted]
      rfl
    rcases ih (hskip.isGapless h) with ⟨e', r', heq, htakes⟩ | ⟨r', heq, htakes⟩
    · exact .inl ⟨e', r', heq, hskip.trans htakes⟩
    · exact .inr ⟨r', heq, hskip.trans htakes⟩
  | case5 e script hinterrupted =>
    refine .inl ⟨e, _, rfl, List.suffix_cons _ _, rfl, ?_, ?_⟩
    · rw [stops, if_neg hinterrupted]
      rfl
    · rintro _ ⟨⟩
      exact ⟨List.mem_cons_self, hinterrupted⟩

theorem readByte_cases (h : r.IsGapless) :
  (∃ e r', r.readByte = (.error e, r') ∧ r.Takes [] (some e) r')
    ∨ ∃ r', r.readByte = (.ok r.rest.head?, r') ∧ r.Takes r.rest.head?.toList none r'
  := by
  obtain ⟨buffer, script⟩ := r
  cases buffer with
  | nil => apply refill_cases h
  | cons b bs => exact .inr ⟨⟨bs, script⟩, rfl, List.suffix_rfl, rfl, rfl, by simp⟩

/-- Where there are enough bytes they are taken, or a failure comes before the last one. -/
theorem readBytes_cases (h : r.IsGapless) (hrest : r.rest = bs ++ bs') :
  (∃ e ds r', r.readBytes bs.length = (.error e, r') ∧ r.Takes ds (some e) r'
      ∧ ds.length < bs.length)
    ∨ ∃ r', r.readBytes bs.length = (.ok bs, r') ∧ r.Takes bs none r'
  := by
  induction bs generalizing r with
  | nil => exact .inr ⟨r, rfl, List.suffix_rfl, rfl, rfl, by simp⟩
  | cons b bs ih =>
    rcases readByte_cases h with ⟨e, r', hbyte, htakes⟩ | ⟨r', hbyte, htakes⟩
    · left
      exact ⟨e, [], r', by rw [List.length_cons, readBytes, hbyte], htakes, Nat.zero_lt_succ _⟩
    · rw [hrest] at hbyte htakes
      have hrest' : r'.rest = bs ++ bs' := by
        have heq := htakes.rest_eq
        rw [hrest] at heq
        apply (List.cons_eq_cons.mp heq).2.symm
      rcases ih (htakes.isGapless h) hrest' with
        ⟨e, ds, r'', hbytes, htakes', hlt⟩ | ⟨r'', hbytes, htakes'⟩
      · refine .inl ⟨e, b :: ds, r'', ?_, htakes.trans htakes', Nat.succ_lt_succ hlt⟩
        rw [List.length_cons, readBytes, hbyte]
        dsimp only [List.head?_cons, List.cons_append]
        rw [hbytes]
      · refine .inr ⟨r'', ?_, htakes.trans htakes'⟩
        rw [List.length_cons, readBytes, hbyte]
        dsimp only [List.head?_cons, List.cons_append]
        rw [hbytes]

end Takes

/-! ### Reading characters -/

/-- The bytes after the first one of a character. -/
theorem isTail_of_mem_utf8EncodeChar {c : Char} {b : UInt8} {bs : List UInt8}
    (h : String.utf8EncodeChar c = b :: bs) :
  ∀ b' ∈ bs, IsTail b'
  := by
  have hchar := isCharacter_utf8EncodeChar c
  rw [h] at hchar
  cases hchar <;> simp_all

/-- No character starts with a byte that follows the first one of a character. -/
theorem followers?_of_isTail {b : UInt8} (h : IsTail b) :
  followers? b = none
  := by
  rw [IsTail] at h
  simp only [followers?, UInt8.le_iff_toNat_le]
  rw [if_neg, if_neg, if_neg, if_neg]
  all_goals
    simp
    omega

/-- The reader has lost the start of a character and holds the other bytes `tails` of it, and after
them the characters `cs`. -/
structure Holds (r : Reader) (tails : List UInt8) (cs : List Char) : Prop where
  isGapless : r.IsGapless
  rest_eq : r.rest = tails ++ encode cs
  isTail : ∀ b ∈ tails, IsTail b

/-- The reader has lost nothing and will lose none of the characters `cs`. -/
def IsIntact (r : Reader) (tails : List UInt8) (cs : List Char) : Prop :=
  tails = [] ∧ r.whole cs = cs

section Whole

variable {r r' : Reader} {bs tails : List UInt8} {e : IoError} {c : Char} {cs : List Char}

theorem Takes.whole_eq (h : r.Takes bs none r') (cs : List Char) :
  r'.whole cs = r.whole cs
  := by
  rw [whole, whole, h.stops_eq]
  rfl

/-- A failure before the characters leaves them whole. -/
theorem Takes.whole_eq_of_le (h : r.Takes bs (some e) r')
    (hle : (encode cs).length ≤ r'.rest.length) :
  r'.whole cs = r.whole cs
  := by
  rw [whole, whole, h.stops_eq]
  apply (untorn_cons_of_le _ hle).symm

/-- A character is whole that is taken without a failure. -/
theorem Takes.whole_cons (h : r.Takes bs none r') (hrest : r'.rest = encode cs) :
  r.whole (c :: cs) = c :: r'.whole cs
  := by
  have hnot : ¬ IsTorn (stops r.script) c cs := by
    rintro ⟨n, hn, hlt, -⟩
    rw [h.stops_eq] at hn
    have hle : n ≤ r'.rest.length := le_of_mem_stops hn
    rw [hrest] at hle
    omega
  rw [h.whole_eq, whole, untorn, if_neg hnot, whole]

/-- A failure within a character tears it. -/
theorem Takes.whole_cons_of_lt (h : r.Takes bs (some e) r')
    (hlt : (encode cs).length < r'.rest.length)
    (hlt' : r'.rest.length < (encode (c :: cs)).length) :
  r.whole (c :: cs) = r'.whole cs
  := by
  have htorn : IsTorn (stops r.script) c cs := by
    refine ⟨r'.rest.length, ?_, hlt, hlt'⟩
    rw [h.stops_eq]
    apply List.mem_cons_self
  rw [h.whole_eq_of_le (Nat.le_of_lt hlt), whole, untorn, if_pos htorn, whole]

end Whole

/-- What a request does to a reader that holds the bytes `tails` and the characters `cs`. -/
structure Proceeds (r : Reader) (tails : List UInt8) (cs : List Char) (step : Delivery × Reader)
    (tails' : List UInt8) (cs' : List Char) : Prop where
  holds : step.2.Holds tails' cs'
  suffix : step.2.script <:+ r.script
  intact : r.IsIntact tails cs → step.2.IsIntact tails' cs'
  /-- It fails, for a malformed byte only of a torn character, or it answers with the next of the
  whole characters, or with the end of the input. -/
  answer : (∃ e, step.1 = .failed e ∧ step.2.whole cs' = r.whole cs
      ∧ (.failed e ∈ r.script ∧ e.kind ≠ .interrupted ∨ e = malformed ∧ ¬ r.IsIntact tails cs))
    ∨ step.1.isFailed = false
      ∧ (Source.ofChars (r.whole cs)).read = (step.1, Source.ofChars (step.2.whole cs'))

section Read

variable {r r' : Reader} {tails : List UInt8} {e : IoError} {c : Char} {cs : List Char}

section Bytes

variable {b : UInt8} {bs : List UInt8} {n : Nat} {r'' : Reader}
  (hbyte : r.readByte = (.ok (some b), r')) (hfollowers : followers? b = some n)
include hbyte hfollowers

theorem read_of_readBytes_eq_error (hbytes : r'.readBytes n = (.error e, r'')) :
  r.read = (.failed e, r'')
  := by
  rw [read, hbyte]
  dsimp only
  rw [hfollowers]
  dsimp only
  rw [hbytes]

theorem read_of_readBytes_eq_ok (hbytes : r'.readBytes n = (.ok bs, r'')) :
  r.read = (decode (b :: bs), r'')
  := by
  rw [read, hbyte]
  dsimp only
  rw [hfollowers]
  dsimp only
  rw [hbytes]

end Bytes

/-- A failure before the next byte changes nothing. -/
theorem Holds.proceeds_of_readByte_eq_error (h : r.Holds tails cs)
    (hbyte : r.readByte = (.error e, r')) (htakes : r.Takes [] (some e) r') :
  r.Proceeds tails cs r.read tails cs
  := by
  have hread : r.read = (.failed e, r') := by rw [read, hbyte]
  have hrest : r'.rest = tails ++ encode cs := htakes.rest_eq.symm.trans h.rest_eq
  have hwhole : r'.whole cs = r.whole cs := by
    apply htakes.whole_eq_of_le
    rw [hrest, List.length_append]
    apply Nat.le_add_left
  rw [hread]
  constructor
  · exact ⟨htakes.isGapless h.isGapless, hrest, h.isTail⟩
  · apply htakes.suffix
  · rintro ⟨htails, heq⟩
    exact ⟨htails, hwhole.trans heq⟩
  · exact .inl ⟨e, rfl, hwhole, .inl (htakes.mem_script e rfl)⟩

/-- At the end of the input the request says so. -/
theorem Holds.proceeds_nil (h : r.Holds [] []) (hbyte : r.readByte = (.ok none, r'))
    (htakes : r.Takes [] none r') :
  r.Proceeds [] [] r.read [] []
  := by
  have hread : r.read = (.ended, r') := by rw [read, hbyte]
  rw [hread]
  constructor
  · exact ⟨htakes.isGapless h.isGapless, htakes.rest_eq.symm.trans h.rest_eq, h.isTail⟩
  · apply htakes.suffix
  · exact fun _ => ⟨rfl, rfl⟩
  · exact .inr ⟨rfl, rfl⟩

/-- What is left of a torn character is malformed, byte by byte. -/
theorem Holds.proceeds_cons {b : UInt8} (h : r.Holds (b :: tails) cs)
    (hbyte : r.readByte = (.ok (some b), r')) (htakes : r.Takes [b] none r') :
  r.Proceeds (b :: tails) cs r.read tails cs
  := by
  obtain ⟨hb, htails⟩ := List.forall_mem_cons.mp h.isTail
  have hread : r.read = (.failed malformed, r') := by
    rw [read, hbyte]
    dsimp only
    rw [followers?_of_isTail hb]
  have hrest := htakes.rest_eq.symm.trans h.rest_eq
  have hnot : ¬ r.IsIntact (b :: tails) cs := by
    rintro ⟨hnil, -⟩
    cases hnil
  rw [hread]
  constructor
  · exact ⟨htakes.isGapless h.isGapless, (List.cons_eq_cons.mp hrest).2, htails⟩
  · apply htakes.suffix
  · exact fun hintact => absurd hintact hnot
  · exact .inl ⟨malformed, rfl, htakes.whole_eq cs, .inr ⟨rfl, hnot⟩⟩

section Char

variable {b : UInt8} {bs ds : List UInt8} {r'' : Reader} (h : r.Holds [] (c :: cs))
  (hencode : String.utf8EncodeChar c = b :: bs) (hfollowers : followers? b = some bs.length)
  (hbyte : r.readByte = (.ok (some b), r')) (htakes : r.Takes [b] none r')
include h hencode hfollowers hbyte htakes

/-- A failure before the last byte tears the character; the bytes not yet taken are its tails. -/
theorem Holds.exists_proceeds_of_torn (hrest : r'.rest = bs ++ encode cs)
    (hbytes : r'.readBytes bs.length = (.error e, r'')) (htakes' : r'.Takes ds (some e) r'')
    (hlt : ds.length < bs.length) :
  ∃ tails', r.Proceeds [] (c :: cs) r.read tails' cs
  := by
  have hread := read_of_readBytes_eq_error hbyte hfollowers hbytes
  have htakes'' := htakes.trans htakes'
  have hsplit := htakes'.rest_eq.symm.trans hrest
  obtain ⟨tails', rfl⟩ : ds <+: bs :=
    List.prefix_of_prefix_length_le ⟨_, hsplit⟩ (List.prefix_append _ _) (Nat.le_of_lt hlt)
  rw [List.append_assoc, List.append_cancel_left_eq] at hsplit
  have hwhole : r.whole (c :: cs) = r''.whole cs := by
    apply htakes''.whole_cons_of_lt
    · rw [hsplit, List.length_append]
      rw [List.length_append] at hlt
      omega
    · rw [hsplit, encode_cons, hencode]
      simp only [List.length_append, List.length_cons]
      omega
  have hnot : ¬ r.IsIntact [] (c :: cs) := by
    rintro ⟨-, heq⟩
    have hle : (r''.whole cs).length ≤ cs.length := length_untorn_le _ _
    rw [← hwhole, heq, List.length_cons] at hle
    omega
  use tails'
  rw [hread]
  constructor
  · refine ⟨htakes''.isGapless h.isGapless, hsplit, ?_⟩
    intro b' hb'
    apply isTail_of_mem_utf8EncodeChar hencode b' (List.mem_append_right _ hb')
  · apply htakes''.suffix
  · exact fun hintact => absurd hintact hnot
  · exact .inl ⟨e, rfl, hwhole.symm, .inl (htakes''.mem_script e rfl)⟩

/-- Without a failure the character is returned. -/
theorem Holds.proceeds_of_whole (hrest : r'.rest = bs ++ encode cs)
    (hbytes : r'.readBytes bs.length = (.ok bs, r'')) (htakes' : r'.Takes bs none r'') :
  r.Proceeds [] (c :: cs) r.read [] cs
  := by
  have hread : r.read = (.char c, r'') := by
    rw [read_of_readBytes_eq_ok hbyte hfollowers hbytes, ← hencode,
      (decode_eq_char_iff _ c).mpr List.prefix_rfl]
  have htakes'' := htakes.trans htakes'
  have hrest' : r''.rest = encode cs := by
    have heq := htakes'.rest_eq.symm.trans hrest
    rwa [List.append_cancel_left_eq] at heq
  have hwhole : r.whole (c :: cs) = c :: r''.whole cs := htakes''.whole_cons hrest'
  rw [hread]
  constructor
  · exact ⟨htakes''.isGapless h.isGapless, hrest', by simp⟩
  · apply htakes''.suffix
  · rintro ⟨-, heq⟩
    rw [hwhole] at heq
    exact ⟨rfl, (List.cons_eq_cons.mp heq).2⟩
  · refine .inr ⟨rfl, ?_⟩
    rw [hwhole]
    rfl

theorem Holds.exists_proceeds_char :
  ∃ tails', r.Proceeds [] (c :: cs) r.read tails' cs
  := by
  have hrest : r'.rest = bs ++ encode cs := by
    have heq := htakes.rest_eq.symm.trans h.rest_eq
    rw [encode_cons, hencode] at heq
    apply (List.cons_eq_cons.mp heq).2
  rcases readBytes_cases (htakes.isGapless h.isGapless) hrest with
    ⟨e, ds, r'', hbytes, htakes', hlt⟩ | ⟨r'', hbytes, htakes'⟩
  · apply h.exists_proceeds_of_torn hencode hfollowers hbyte htakes hrest hbytes htakes' hlt
  · exact ⟨[], h.proceeds_of_whole hencode hfollowers hbyte htakes hrest hbytes htakes'⟩

end Char

theorem Holds.exists_proceeds (h : r.Holds tails cs) :
  ∃ tails' cs', r.Proceeds tails cs r.read tails' cs'
  := by
  rcases readByte_cases h.isGapless with ⟨e, r', hbyte, htakes⟩ | ⟨r', hbyte, htakes⟩
  · exact ⟨tails, cs, h.proceeds_of_readByte_eq_error hbyte htakes⟩
  · rw [h.rest_eq] at hbyte htakes
    match tails, cs with
    | b :: tails, cs => exact ⟨tails, cs, h.proceeds_cons hbyte htakes⟩
    | [], [] => exact ⟨[], [], h.proceeds_nil hbyte htakes⟩
    | [], c :: cs =>
      obtain ⟨b, bs, hencode, hfollowers⟩ := exists_utf8EncodeChar_eq c
      rw [List.nil_append, encode_cons, hencode] at hbyte htakes
      obtain ⟨tails', hproceeds⟩ := h.exists_proceeds_char hencode hfollowers hbyte htakes
      exact ⟨tails', cs, hproceeds⟩

end Read

/-! ### Many requests -/

/-- The answers to the next `n` requests that are no failures. -/
def answered (r : Reader) (n : Nat) : List Delivery :=
  (r.readMany n).1.filter (!·.isFailed)

theorem readMany_succ_fst (n : Nat) (r : Reader) :
  (r.readMany (n + 1)).1 = r.read.1 :: (r.read.2.readMany n).1
  := rfl

theorem answered_succ_of_failed {r : Reader} {e : IoError} (h : r.read.1 = .failed e) (n : Nat) :
  r.answered (n + 1) = r.read.2.answered n
  := by
  rw [answered, readMany_succ_fst, h]
  rfl

theorem answered_succ_of_not_failed {r : Reader} (h : r.read.1.isFailed = false) (n : Nat) :
  r.answered (n + 1) = r.read.1 :: r.read.2.answered n
  := by
  rw [answered, readMany_succ_fst, List.filter_cons_of_pos (by simpa using h)]
  rfl

/-- Where no bytes are left, no characters are. -/
theorem Holds.whole_eq_nil {r : Reader} {tails : List UInt8} {cs : List Char} (h : r.Holds tails cs)
    (hrest : r.rest = []) :
  r.whole cs = []
  := by
  have hnil := h.rest_eq.symm.trans hrest
  rw [List.append_eq_nil_iff, encode_eq_nil_iff] at hnil
  rw [hnil.2]
  rfl

theorem rest_eq_nil_of_isExhausted {r : Reader} (h : r.isExhausted) :
  r.rest = []
  := by
  obtain ⟨buffer, script⟩ := r
  rw [isExhausted, Bool.and_eq_true, List.isEmpty_iff, List.isEmpty_iff] at h
  obtain ⟨rfl, rfl⟩ := h
  rfl

/-- What a number of requests gives. -/
structure GivesMany (r : Reader) (tails : List UInt8) (cs : List Char) (n : Nat) : Prop where
  answered_eq : r.answered n = ((Source.ofChars (r.whole cs)).readMany (r.answered n).length).1
  length_le : r.size ≤ n → (r.whole cs).length ≤ (r.answered n).length
  failed : ∀ e, .failed e ∈ (r.readMany n).1 →
    .failed e ∈ r.script ∧ e.kind ≠ .interrupted ∨ e = malformed ∧ ¬ r.IsIntact tails cs

/-- Where a request leads to a reader that gives what it holds, it is given from the start. -/
theorem Proceeds.givesMany {r : Reader} {tails tails' : List UInt8} {cs cs' : List Char} {n : Nat}
    (hproceeds : r.Proceeds tails cs r.read tails' cs') (h : r.Holds tails cs)
    (hlater : r.read.2.GivesMany tails' cs' n) :
  r.GivesMany tails cs (n + 1)
  := by
  constructor
  · rcases hproceeds.answer with ⟨e, hfailed, hwhole, -⟩ | ⟨hanswered, hsource⟩
    · rw [answered_succ_of_failed hfailed, ← hwhole]
      apply hlater.answered_eq
    · rw [answered_succ_of_not_failed hanswered, List.length_cons, Source.readMany, hsource]
      apply congrArg (_ :: ·) hlater.answered_eq
  · intro hsize
    by_cases hexhausted : r.isExhausted
    · rw [h.whole_eq_nil (rest_eq_nil_of_isExhausted hexhausted)]
      apply Nat.zero_le
    · have hlt := size_read_lt (Bool.eq_false_iff.mpr hexhausted)
      have hle := hlater.length_le (by omega)
      rcases hproceeds.answer with ⟨e, hfailed, hwhole, -⟩ | ⟨hanswered, hsource⟩
      · rwa [answered_succ_of_failed hfailed, ← hwhole]
      · rw [answered_succ_of_not_failed hanswered, List.length_cons]
        cases hwhole : r.whole cs with
        | nil => apply Nat.zero_le
        | cons c cs₁ =>
          rw [hwhole] at hsource
          have hlength := congrArg List.length (Prod.mk.inj hsource).2
          simp only [Source.ofChars, List.length_map] at hlength
          rw [List.length_cons, hlength]
          apply Nat.succ_le_succ hle
  · intro e he
    rw [readMany_succ_fst, List.mem_cons] at he
    rcases he with he | he
    · rcases hproceeds.answer with ⟨e', hfailed, -, hcause⟩ | ⟨hanswered, -⟩
      · cases he.trans hfailed
        exact hcause
      · rw [← he] at hanswered
        cases hanswered
    · rcases hlater.failed e he with ⟨hmem, hkind⟩ | ⟨hmalformed, hnot⟩
      · exact .inl ⟨hproceeds.suffix.subset hmem, hkind⟩
      · exact .inr ⟨hmalformed, fun hintact => hnot (hproceeds.intact hintact)⟩

theorem Holds.givesMany {r : Reader} {tails : List UInt8} {cs : List Char} (h : r.Holds tails cs)
    (n : Nat) :
  r.GivesMany tails cs n
  := by
  induction n generalizing r tails cs with
  | zero =>
    refine ⟨rfl, ?_, fun e he => by cases he⟩
    intro hsize
    rw [size] at hsize
    rw [h.whole_eq_nil (List.length_eq_zero_iff.mp (by omega))]
    apply Nat.zero_le
  | succ n ih =>
    obtain ⟨tails', cs', hproceeds⟩ := h.exists_proceeds
    apply hproceeds.givesMany h (ih hproceeds.holds)

/-- A reader of the characters `cs`, in any buffers that are not empty and with any failures among
them, is asked again and again.  But for its failures it answers with just those of the characters
within which no request fails, and then with the end of the input, and all of these have come when
it was asked as often as it has bytes and fillings.  Its failures are those of its requests, and
where one of these tears a character also that for malformed bytes. -/
theorem answered_of_failures {r : Reader} {cs : List Char}
    (hbuffers : ∀ bs, .bytes bs ∈ r.script → bs ≠ []) (hrest : r.rest = encode cs) (n : Nat) :
  r.answered n = ((Source.ofChars (r.whole cs)).readMany (r.answered n).length).1
    ∧ (r.size ≤ n → (r.whole cs).length ≤ (r.answered n).length)
    ∧ ∀ e, .failed e ∈ (r.readMany n).1 →
      .failed e ∈ r.script ∧ e.kind ≠ .interrupted ∨ e = malformed ∧ r.whole cs ≠ cs
  := by
  have hholds : r.Holds [] cs := ⟨hbuffers, hrest, by simp⟩
  have hgives := hholds.givesMany n
  refine ⟨hgives.answered_eq, hgives.length_le, ?_⟩
  intro e he
  apply (hgives.failed e he).imp_right
  rintro ⟨hmalformed, hnot⟩
  exact ⟨hmalformed, fun heq => hnot ⟨rfl, heq⟩⟩

/-- A reader of `aéß` that fails before `a`, within `é` and between `é` and `ß`, and is interrupted
within `ß`. -/
def failing : Reader :=
  ofScript [.failed ⟨.wouldBlock, "w"⟩, .bytes [0x61, 0xc3], .failed ⟨.wouldBlock, "w"⟩,
    .bytes [0xa9], .failed ⟨.timedOut, "t"⟩, .bytes [0xc3], .failed ⟨.interrupted, ""⟩,
    .bytes [0x9f]]

/-- Only `é` is lost. -/
theorem answered_of_failures_failing :
  failing.whole ['a', 'é', 'ß'] = ['a', 'ß']
    ∧ failing.answered 7 = [.char 'a', .char 'ß', .ended]
    ∧ ∀ n, failing.answered n
      = ((Source.ofChars (failing.whole ['a', 'é', 'ß'])).readMany (failing.answered n).length).1
  := by
  refine ⟨by decide, rfl, ?_⟩
  intro n
  have hbuffers : ∀ bs, .bytes bs ∈ failing.script → bs ≠ [] := by
    rintro bs hbs rfl
    revert hbs
    decide
  apply (answered_of_failures hbuffers (by decide) n).1

/-- A reader of `é` that fails within it. -/
def torn : Reader :=
  ofScript [.bytes [0xc3], .failed ⟨.wouldBlock, "w"⟩, .bytes [0xa9]]

/-- The character is lost, and one of the failures is none of the reader's own. -/
theorem not_answered_torn :
  torn.rest = encode ['é'] ∧ torn.size ≤ 5
    ∧ (torn.readMany 5).1 = [.failed ⟨.wouldBlock, "w"⟩, .failed malformed, .ended, .ended, .ended]
    ∧ torn.answered 5 ≠ ((Source.ofChars ['é']).readMany (torn.answered 5).length).1
    ∧ .failed malformed ∉ torn.script
  := by
  have hanswers : (torn.readMany 5).1
      = [.failed ⟨.wouldBlock, "w"⟩, .failed malformed, .ended, .ended, .ended] := rfl
  refine ⟨by decide, by decide, hanswers, ?_, by decide⟩
  rw [answered, hanswers]
  decide

end Reader

end TemplateLexer

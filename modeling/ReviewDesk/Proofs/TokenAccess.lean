import ReviewDesk.Proofs.Addresses
import ReviewDesk.Proofs.JsonFields

/-!
# What a token opens

A token that was issued for a user is accepted as a token of its own kind, up to the second in which
it expires, and then opens to the user with that number if there is one who is active.
-/

namespace ReviewDesk

open List Json Text Value Moment

/-!
## What stands in a token

A token is text made of bytes made of text made of values. Each of these steps can be undone: what
is signed with a key and opened with the same key is what it was.
-/

lemma Text.ofUtf8?_utf8 (cs : Chars) : ofUtf8? (utf8 cs) = some cs := by
  have h : (utf8 cs).toByteArray.utf8Decode? = some cs.toArray := utf8Decode?_utf8Encode
  rw [ofUtf8?, h, Option.map_some]

namespace Token

variable (bs : List UInt8)

lemma sextet?_sextetByte {n : Nat} (h : n < 64) :
    sextet? (sextetByte n) = some n ∧ sextetByte n ≠ 61 ∧ sextetByte n ≠ dot ∧
      (sextetByte n).toNat < 128 := by
  revert n
  decide

lemma readBase64_sextet (q : Quad) {n : Nat} (h : n < 64) (rest : List UInt8) :
    readBase64 q (sextetByte n :: rest) =
      match q.count with
      | 0 => readBase64 { count := 1, bits := n } rest
      | 1 => (readBase64 { count := 2, bits := n % 16 } rest).map
        ((q.bits * 4 + n / 16).toUInt8 :: ·)
      | 2 => (readBase64 { count := 3, bits := n % 4 } rest).map
        ((q.bits * 16 + n / 4).toUInt8 :: ·)
      | _ => (readBase64 {} rest).map ((q.bits * 64 + n).toUInt8 :: ·) := by
  obtain ⟨hsextet, hpad, _⟩ := sextet?_sextetByte h
  rcases hcount : q.count with _ | _ | _ | m <;> simp [readBase64, hpad, hsextet, hcount]

lemma toUInt8_eq {n : Nat} {a : UInt8} (h : n = a.toNat) : n.toUInt8 = a := by
  rw [h, Nat.toUInt8_eq, UInt8.ofNat_toNat]

lemma ofBase64?_base64 : ofBase64? (base64 bs) = some bs := by
  unfold ofBase64?
  fun_induction base64 bs with
  | case1 => rfl
  | case2 a =>
    have ha := a.toNat_lt
    rw [cons_append, cons_append, readBase64_sextet _ (by omega),
      readBase64_sextet _ (by omega)]
    have hfirst : (a.toNat / 4 * 4 + a.toNat % 4 * 16 / 16).toUInt8 = a := toUInt8_eq (by omega)
    simp only [hfirst]
    rfl
  | case3 a b =>
    have ha := a.toNat_lt
    have hb := b.toNat_lt
    rw [cons_append, cons_append, cons_append, readBase64_sextet _ (by omega),
      readBase64_sextet _ (by omega)]
    have hfirst : (a.toNat / 4 * 4 + (a.toNat % 4 * 16 + b.toNat / 16) / 16).toUInt8 = a :=
      toUInt8_eq (by omega)
    simp only [hfirst]
    rw [readBase64_sextet _ (by omega)]
    have hsecond :
        ((a.toNat % 4 * 16 + b.toNat / 16) % 16 * 16 + b.toNat % 16 * 4 / 4).toUInt8 = b :=
      toUInt8_eq (by omega)
    simp only [hsecond]
    rfl
  | case4 a b c rest ih =>
    have ha := a.toNat_lt
    have hb := b.toNat_lt
    have hc := c.toNat_lt
    have hpads : (4 - ((base64 rest).length + 1 + 1 + 1 + 1) % 4) % 4 =
        (4 - (base64 rest).length % 4) % 4 := by omega
    simp only [length_cons, cons_append, hpads]
    rw [readBase64_sextet _ (by omega), readBase64_sextet _ (by omega)]
    have hfirst : (a.toNat / 4 * 4 + (a.toNat % 4 * 16 + b.toNat / 16) / 16).toUInt8 = a :=
      toUInt8_eq (by omega)
    have hsecond : ((a.toNat % 4 * 16 + b.toNat / 16) % 16 * 16 +
        (b.toNat % 16 * 4 + c.toNat / 64) / 4).toUInt8 = b := toUInt8_eq (by omega)
    have hthird : ((b.toNat % 16 * 4 + c.toNat / 64) % 4 * 64 + c.toNat % 64).toUInt8 = c :=
      toUInt8_eq (by omega)
    simp only [hfirst]
    rw [readBase64_sextet _ (by omega)]
    simp only [hsecond]
    rw [readBase64_sextet _ (by omega)]
    simp only [hthird, ih, Option.map_some]

/-- Bytes that are characters by themselves, and no dots. -/
def Bare : Prop := ∀ b ∈ bs, b.toNat < 128 ∧ b ≠ dot

lemma bare_base64 : Bare (base64 bs) := by
  have hsextet {n : Nat} (h : n < 64) : (sextetByte n).toNat < 128 ∧ sextetByte n ≠ dot :=
    ⟨(sextet?_sextetByte h).2.2.2, (sextet?_sextetByte h).2.2.1⟩
  unfold Bare
  fun_induction base64 bs with
  | case1 => intro b hb; cases hb
  | case2 a =>
    have ha := a.toNat_lt
    simp only [forall_mem_cons]
    exact ⟨hsextet (by omega), hsextet (by omega), fun b hb => by cases hb⟩
  | case3 a b =>
    have ha := a.toNat_lt
    have hb := b.toNat_lt
    simp only [forall_mem_cons]
    exact ⟨hsextet (by omega), hsextet (by omega), hsextet (by omega), fun b hb => by cases hb⟩
  | case4 a b c rest ih =>
    have ha := a.toNat_lt
    have hb := b.toNat_lt
    have hc := c.toNat_lt
    simp only [forall_mem_cons]
    exact ⟨hsextet (by omega), hsextet (by omega), hsextet (by omega), hsextet (by omega), ih⟩

lemma splitFirst_append {a : List UInt8} (ha : dot ∉ a) (b : List UInt8) :
    splitFirst (a ++ dot :: b) = some (a, b) := by
  have hbytes : ∀ x ∈ a, (x != dot) = true := by
    intro x hx
    exact bne_iff_ne.mpr fun heq => ha (heq ▸ hx)
  rw [splitFirst, span_eq_takeWhile_dropWhile, takeWhile_append_of_pos hbytes,
    dropWhile_append_of_pos hbytes, takeWhile_cons_of_neg (by simp),
    dropWhile_cons_of_neg (by simp), append_nil]

lemma splitLast_append (a : List UInt8) {b : List UInt8} (hb : dot ∉ b) :
    splitLast (a ++ dot :: b) = some (a, b) := by
  have hreverse : (a ++ dot :: b).reverse = b.reverse ++ dot :: a.reverse := by simp
  rw [splitLast, hreverse, splitFirst_append (by simpa using hb)]
  simp only [Option.map_some, reverse_reverse]

lemma utf8_bytesText {bs : List UInt8} (h : ∀ b ∈ bs, b.toNat < 128) :
    utf8 (bytesText bs).toList = bs := by
  rw [bytesText, String.toList_ofList]
  induction bs with
  | nil => rfl
  | cons b bs ih =>
    have hb := h b (.head _)
    have hrest := ih fun x hx => h x (.tail _ hx)
    have hchar : (Char.ofNat b.toNat).val.toNat = b.toNat :=
      toNat_ofNat_of_isValidChar (.inl (show b.toNat < 0xD800 by omega))
    rw [utf8, map_cons, flatMap_cons, ← utf8, String.utf8EncodeChar, hchar,
      if_pos (Nat.le_of_lt_succ hb), hrest, UInt8.ofNat_toNat]
    rfl

/-- What is signed with a key is opened with it, if header and claims are objects that can be read
back. -/
lemma open?_sign (key : String) {header claims : Value} {hs cs : Fields}
    (hheader : objectOf? (utf8 (write header).toList) = some hs)
    (halg : (Fields.get? hs "alg").bind text? = some "HS256")
    (hclaims : objectOf? (utf8 (write claims).toList) = some cs) :
    open? key (sign key header claims) = some cs := by
  unfold sign
  generalize utf8 (write header).toList = first at hheader
  generalize utf8 (write claims).toList = second at hclaims
  generalize hdigest : keyedHash (utf8 key.toList) (signingInput first second) = digest
  have hsmall : ∀ b ∈ signingInput first second ++ dot :: base64 digest, b.toNat < 128 := by
    intro b hb
    simp only [signingInput, mem_append, mem_cons] at hb
    rcases hb with (hb | rfl | hb) | rfl | hb
    · exact (bare_base64 first b hb).1
    · decide
    · exact (bare_base64 second b hb).1
    · decide
    · exact (bare_base64 digest b hb).1
  have hnodot (bs : List UInt8) : dot ∉ base64 bs := fun hmem => (bare_base64 bs dot hmem).2 rfl
  have hsplit : splitFirst (signingInput first second) = some (base64 first, base64 second) :=
    splitFirst_append (hnodot first) _
  unfold open?
  simp only [utf8_bytesText hsmall, splitLast_append _ (hnodot digest), hsplit, ofBase64?_base64,
    Option.bind_eq_bind, Option.bind_some, hheader, halg, hdigest, hclaims, guard, if_true]
  rfl

end Token

open List Work Store Moment

namespace Work

lemma run_settings (d : Desk) : run settings d = (.ok d.settings, d) := rfl

lemma run_now (d : Desk) : run now d = (.ok d.now, d) := rfl

end Work

/-! ## Numbers as subjects -/

namespace Decimal

lemma takeDigits_digits {cs : Chars} (h : ∀ c ∈ cs, c.isDigit = true) (count value : Nat) :
    takeDigits count value cs = (count + cs.length, Nat.ofDigitChars 10 cs value, []) := by
  induction cs generalizing count value with
  | nil => rfl
  | cons c cs ih =>
    have hc := h c (.head _)
    have hrest := ih (fun x hx => h x (.tail _ hx)) (count + 1)
      (value * 10 + (c.toNat - 48))
    rw [takeDigits.eq_def]
    split
    · rename_i heq
      cases heq
    · rename_i heq
      obtain ⟨rfl, _⟩ := List.cons.inj heq
      cases hc
    · rename_i heq
      obtain ⟨rfl, rfl⟩ := List.cons.inj heq
      rw [digit?_of_isDigit hc]
      show takeDigits (count + 1) (value * 10 + (c.toNat - 48)) cs = _
      rw [hrest, length_cons, Nat.ofDigitChars_eq_foldl, Nat.ofDigitChars_eq_foldl,
        foldl_cons, Nat.mul_comm value, Nat.add_assoc, Nat.add_comm 1]
      rfl

lemma isBlank_of_isDigit {c : Char} (h : c.isDigit = true) : isBlank c = false := by
  have hrange := toNat_of_isDigit h
  simp only [isBlank, Bool.or_eq_false_iff, Bool.and_eq_false_iff, decide_eq_false_iff_not]
  omega

lemma takeSign_natDigits (n : Int) :
    takeSign ((if n < 0 then ['-'] else []) ++ natDigits n.natAbs) =
      (decide (n < 0), natDigits n.natAbs) := by
  split
  · rename_i hneg
    rw [decide_eq_true hneg]
    rfl
  · rename_i hneg
    rw [decide_eq_false hneg, nil_append]
    obtain ⟨d, ds, hds, hd⟩ := natDigits_eq_cons n.natAbs
    rw [hds, takeSign.eq_def]
    split
    · rename_i heq
      exact absurd (List.cons.inj heq).1 (ne_of_isDigit hd rfl)
    · rename_i heq
      exact absurd (List.cons.inj heq).1 (ne_of_isDigit hd rfl)
    · rfl

lemma intOfText?_intText {n : Int} (hshort : (natDigits n.natAbs).length ≤ mostDigits) :
    intOfText? (intText n).toList = some n := by
  have hdigits : ∀ c ∈ natDigits n.natAbs, c.isDigit = true :=
    fun c hc => Diff.isDigit_of_mem_natDigits hc
  have hblank (c : Char) (hc : c ∈ (if n < 0 then ['-'] else []) ++ natDigits n.natAbs) :
      isBlank c = false := by
    rcases mem_append.mp hc with hc | hc
    · split at hc
      · rw [mem_singleton.mp hc]
        decide
      · cases hc
    · exact isBlank_of_isDigit (hdigits c hc)
  have hpos : (natDigits n.natAbs).length ≠ 0 := by
    rw [ne_eq, length_eq_zero_iff]
    exact Nat.toDigits_ne_nil
  rw [toList_intText, intOfText?, trim_eq_self hblank, takeSign_natDigits]
  simp only [takeDigits_digits hdigits, Nat.zero_add]
  have hvalue : Nat.ofDigitChars 10 (natDigits n.natAbs) 0 = n.natAbs :=
    Nat.ofDigitChars_ten_toDigits
  rw [if_neg (by simp [hpos]; omega), hvalue]
  simp only [decide_eq_true_eq]
  congr 1
  split <;> omega

end Decimal

/-! ## Tokens -/

namespace Token

variable (kind : Kind)

def expiry (p : Policy) (kind : Kind) (now : Moment) (life : Option Int) : Moment :=
  now.addMicros (match life with
    | some n => if n = 0 then p.minutes kind * 60 * second else n
    | none => p.minutes kind * 60 * second)

lemma issue_eq (p : Policy) (kind : Kind) (subject : String) (now : Moment) (life : Option Int) :
    issue p kind subject now life =
      if (expiry p kind now life).inCalendar then
        .ok (sign p.key header (claims kind subject (expiry p kind now life).seconds))
      else .error (.tooLarge "date value out of range") := rfl

lemma natDigits_seconds {m : Moment} (h : m.inCalendar = true) :
    (Decimal.natDigits m.seconds.natAbs).length ≤ 4300 := by
  have hbounds : -62135596800000000 ≤ m.micros ∧ m.micros ≤ 253402300799999999 := by
    simp only [inCalendar, Bool.and_eq_true, decide_eq_true_eq] at h
    exact h
  have hsmall : m.seconds.natAbs < Nat.pow 10 20 := by
    simp only [seconds, second]
    have hpow : Nat.pow 10 20 = 100000000000000000000 := rfl
    omega
  have hlength := Diff.length_natDigits_le (by decide) hsmall
  omega

def claimFields (subject : String) (expires : Int) : Fields :=
  [("exp", .int expires), ("sub", .text subject), ("type", .text kind.name)]

lemma objectOf?_write {fs : Fields} (hne : fs ≠ []) (h : ∀ f ∈ fs, Json.Simple f.2) :
    objectOf? (utf8 (write (.object fs)).toList) = some (Fields.merge [] fs) := by
  rw [objectOf?, ofUtf8?_utf8, Option.map_some, read_write_object hne h]

lemma open?_claims (key : String) (kind : Kind) (subject : String) {m : Moment}
    (hm : m.inCalendar = true) :
    open? key (sign key header (claims kind subject m.seconds)) =
      some (claimFields kind subject m.seconds) := by
  refine open?_sign key (objectOf?_write (by simp) ?_) rfl (objectOf?_write (by simp) ?_)
  · simp only [forall_mem_cons]
    exact ⟨.text _, .text _, fun f hf => by cases hf⟩
  · simp only [forall_mem_cons]
    exact ⟨.int (natDigits_seconds hm), .text _, .text _, fun f hf => by cases hf⟩

/-- Of these claims only the expiry can fail to hold. -/
lemma claimsHold_issued (subject : String) (e now : Int) :
    claimsHold (claimFields kind subject e) now = .ok (decide (now ≤ e)) := by
  have hiat : wholeClaimOk (claimFields kind subject e) "iat" (fun _ => true) = .ok true := rfl
  have hnbf : wholeClaimOk (claimFields kind subject e) "nbf" (· ≤ now) = .ok true := rfl
  have hexp : wholeClaimOk (claimFields kind subject e) "exp" (now ≤ ·) = .ok (decide (now ≤ e)) :=
    rfl
  rw [claimsHold, hiat, hnbf, hexp]
  cases decide (now ≤ e) <;> rfl

lemma subject?_issued (kind' : Kind) (subject : String) (e : Int) :
    subject? (claimFields kind subject e) kind' = if kind' = kind then some subject else none := by
  cases kind <;> cases kind' <;> rfl

/-- A token is accepted as one of its kind up to the second in which it expires. -/
lemma verify_issued {p q : Policy} (hkey : q.key = p.key) {kind : Kind} {subject token : String}
    {t : Moment} {life : Option Int} (h : issue p kind subject t life = .ok token) (kind' : Kind)
    (now : Moment) :
    verify q kind' token now =
      .ok (if now.seconds ≤ (expiry p kind t life).seconds ∧ kind' = kind then some subject
        else none) := by
  rw [issue_eq] at h
  split at h
  · rename_i hcalendar
    have hopen := open?_claims p.key kind subject hcalendar
    rw [Except.ok.inj h] at hopen
    rw [verify, hkey, hopen]
    simp only [claimsHold_issued, subject?_issued, Outcome.bind_ok, decide_eq_true_eq]
    by_cases hnow : now.seconds ≤ (expiry p kind t life).seconds
    · simp only [hnow, if_true, true_and]
      rfl
    · simp only [hnow, if_false, false_and]
      rfl
  · cases h

lemma exists_issue (p : Policy) (kind : Kind) (subject : String) (t : Moment)
    (life : Option Int) : (∃ token, issue p kind subject t life = .ok token) ↔
      (expiry p kind t life).inCalendar = true := by
  rw [issue_eq]
  split <;> simp [*]

/-- A token opens to its subject up to the second a time after it was issued, and then no more. -/
def LivesFor (p : Policy) (kind : Kind) (subject token : String) (t : Moment) (micros : Int) :
    Prop :=
  ∀ now, verify p kind token now =
    .ok (if now.seconds ≤ (t.addMicros micros).seconds then some subject else none)

lemma livesFor_iff_seconds {p : Policy} {subject token : String} {t : Moment} {life : Option Int}
    (h : issue p kind subject t life = .ok token) (micros : Int) :
    LivesFor p kind subject token t micros ↔
      (expiry p kind t life).seconds = (t.addMicros micros).seconds := by
  have hverify (now : Moment) := verify_issued rfl h kind now
  simp only [and_true] at hverify
  simp only [LivesFor, hverify, Except.ok.injEq]
  constructor
  · intro hlives
    have hlast := hlives (expiry p kind t life)
    have hasked := hlives (t.addMicros micros)
    rw [if_pos (Int.le_refl _)] at hlast hasked
    split at hlast
    · split at hasked
      · omega
      · cases hasked
    · cases hlast
  · intro heq now
    rw [heq]

/-- **A token lives as long as was asked for, but not if no time at all was asked for.** Whatever the
subject is, a time that is not zero gives a token exactly if it ends within the calendar. A token
that was given lives for the time asked for, be it positive or negative, unless that time is zero:
then it lives for the usual time, which is zero too only if the policy says so. -/
theorem livesFor_iff_time_asked (p : Policy) (kind : Kind) (subject : String) (t : Moment)
    (micros : Int) :
    (micros ≠ 0 → ((∃ token, issue p kind subject t (some micros) = .ok token) ↔
      (t.addMicros micros).inCalendar = true)) ∧
    ∀ token, issue p kind subject t (some micros) = .ok token →
      (LivesFor p kind subject token t micros ↔ micros ≠ 0 ∨ p.minutes kind = 0) := by
  have hasked (h : micros ≠ 0) : expiry p kind t (some micros) = t.addMicros micros := by
    rw [expiry, if_neg h]
  refine ⟨fun h => by rw [exists_issue, hasked h], fun token htoken => ?_⟩
  rw [livesFor_iff_seconds kind htoken]
  by_cases hzero : micros = 0
  · subst hzero
    simp only [expiry, Moment.addMicros, Moment.seconds, Moment.second, ↓reduceIte, ne_eq,
      not_true_eq_false, false_or]
    omega
  · simp [hasked hzero, hzero]

/-- A token for no time at all is still accepted after a minute. -/
theorem no_time_is_half_an_hour :
    let p : Policy := ⟨"key", 30, 60⟩
    ∃ token, issue p .access "ann \u2603" ⟨0⟩ (some 0) = .ok token ∧
      ¬LivesFor p .access "ann \u2603" token ⟨0⟩ 0 ∧
      verify p .access token ⟨60 * Moment.second⟩ = .ok (some "ann \u2603") := by
  intro p
  obtain ⟨token, htoken⟩ := (exists_issue p .access "ann \u2603" ⟨0⟩ (some 0)).mpr (by decide)
  refine ⟨token, htoken, fun hlives => ?_, ?_⟩
  · have hasked := ((livesFor_iff_time_asked p .access _ ⟨0⟩ 0).2 token htoken).mp hlives
    exact absurd hasked (by decide)
  · rw [verify_issued rfl htoken, if_pos (by decide)]

end Token

/-! ## Users -/

namespace Api

open Token (Policy Kind issue expiry exists_issue)

variable {d : Desk} {n : Int} {p : Policy} {kind : Kind} {t : Moment} {life : Option Int}
  {token : String}

lemma userById_eq {s : Store} (hs : (s.users.map (·.id)).Nodup) (hn : fits n) :
    s.userById (.int n) = .ok (s.users.find? (·.id == n)) := by
  rw [userById, Outcome.bind_of_ok (parameter_int hn)]
  simp only [intIs_int]
  exact one_filter_key hs n

lemma natDigits_fits (hn : fits n) : (Decimal.natDigits n.natAbs).length ≤ Decimal.mostDigits := by
  have hbounds : -9223372036854775808 ≤ n ∧ n ≤ 9223372036854775807 := by
    simpa [fits] using hn
  have hsmall : n.natAbs < Nat.pow 10 20 := by
    have hpow : Nat.pow 10 20 = 100000000000000000000 := rfl
    omega
  have hlength := Diff.length_natDigits_le (by decide) hsmall
  have hmost : Decimal.mostDigits = 4300 := rfl
  omega

lemma numberOf_intText (hn : fits n) : numberOf (intText n) = .ok (.int n) := by
  rw [numberOf, Decimal.intOfText?_intText (natDigits_fits hn)]

lemma intText_ne_empty (n : Int) : intText n ≠ "" := by
  intro h
  have hlist := congrArg String.toList h
  rw [toList_intText] at hlist
  have hnil : Decimal.natDigits n.natAbs = [] := (append_eq_nil_iff.mp hlist).2
  exact Nat.toDigits_ne_nil hnil

/-- The user with the number is there and active. -/
def Holder (s : Store) (n : Int) (u : User) : Prop := u ∈ s.users ∧ u.id = n ∧ u.isActive = true

def Unauthorized (e : Fault) : Prop := ∃ detail headers, e = .rejected 401 detail headers

/-- What a request comes to that needs a token which is accepted and the active user with the
number. -/
def grant {α : Type} (accepted : Prop) [Decidable accepted] (s : Store) (n : Int)
    (refused unknown inactive : Fault) (answer : User → Outcome α) : Outcome α :=
  if accepted then
    match s.users.find? (·.id == n) with
    | none => .error unknown
    | some u => if u.isActive then answer u else .error inactive
  else .error refused

section

variable {α : Type} {accepted : Prop} [Decidable accepted] {s : Store}
  {refused unknown inactive : Fault} {answer : User → Outcome α}

lemma find?_active_iff (hs : (s.users.map (·.id)).Nodup) {u : User} :
    s.users.find? (·.id == n) = some u ∧ u.isActive = true ↔ Holder s n u := by
  constructor
  · rintro ⟨hfind, hactive⟩
    exact ⟨mem_of_find?_eq_some hfind, by simpa using find?_some hfind, hactive⟩
  · rintro ⟨hu, rfl, hactive⟩
    exact ⟨find?_key hs hu, hactive⟩

lemma grant_eq_ok (hs : (s.users.map (·.id)).Nodup) {a : α} :
    grant accepted s n refused unknown inactive answer = .ok a ↔
      accepted ∧ ∃ u, Holder s n u ∧ answer u = .ok a := by
  simp only [← find?_active_iff hs, grant]
  by_cases haccepted : accepted
  · cases s.users.find? (·.id == n) with
    | none => simp [haccepted]
    | some u => cases hactive : u.isActive <;> simp [haccepted, hactive]
  · simp [haccepted]

lemma grant_eq_error (hs : (s.users.map (·.id)).Nodup) (hrefused : Unauthorized refused)
    (hunknown : Unauthorized unknown) (hinactive : Unauthorized inactive) {e : Fault}
    (h : grant accepted s n refused unknown inactive answer = .error e) :
    Unauthorized e ∧ ¬(accepted ∧ ∃ u, Holder s n u) ∨
      accepted ∧ ∃ u, Holder s n u ∧ answer u = .error e := by
  simp only [← find?_active_iff hs]
  simp only [grant] at h
  split at h
  · rename_i haccepted
    split at h
    · rename_i hfind
      refine .inl ⟨Except.error.inj h ▸ hunknown, ?_⟩
      simp [hfind]
    · rename_i u hfind
      split at h
      · rename_i hactive
        exact .inr ⟨haccepted, u, ⟨hfind, hactive⟩, h⟩
      · rename_i hinactive'
        refine .inl ⟨Except.error.inj h ▸ hinactive, ?_⟩
        rintro ⟨_, v, hv, hactive⟩
        exact hinactive' (Option.some.inj (hfind.symm.trans hv) ▸ hactive)
  · rename_i haccepted
    exact .inl ⟨Except.error.inj h ▸ hrefused, fun hopen => haccepted hopen.1⟩

end

lemma run_currentUser (hd : d.Answers) (hs : (d.store.users.map (·.id)).Nodup) (hn : fits n)
    (hkey : d.settings.tokens.key = p.key) (h : issue p kind (intText n) t life = .ok token) :
    (run (currentUser token) d).1 =
      grant (d.now.seconds ≤ (expiry p kind t life).seconds ∧ .access = kind)
        d.store n (unauthorized "Invalid authentication credentials")
        (.denied 401 "User not found") (.denied 401 "Inactive user") .ok := by
  have hverify := Token.verify_issued hkey h .access d.now
  simp only [currentUser, run_bind, run_settings, run_now, run_ofOutcome, hverify, grant]
  by_cases hlive : d.now.seconds ≤ (expiry p kind t life).seconds ∧ .access = kind
  · simp only [if_pos hlive, run_bind, run_ofOutcome, numberOf_intText hn, run_query _ (hd _),
      userById_eq hs hn]
    cases d.store.users.find? (·.id == n) with
    | none => rfl
    | some u => cases hactive : u.isActive <;> simp [hactive]
  · simp only [if_neg hlive]
    rfl

lemma run_issueTokens (n : Int) (d : Desk) : (run (issueTokens n) d).1 =
      match issue d.settings.tokens .access (intText n) d.now none,
        issue d.settings.tokens .refresh (intText n) d.now none with
      | .ok access, .ok refresh => .ok { access, refresh }
      | .error e, _ => .error e
      | .ok _, .error e => .error e := by
  simp only [issueTokens, run_bind, run_settings, run_now, run_ofOutcome]
  cases issue d.settings.tokens .access (intText n) d.now none with
  | error e => rfl
  | ok access => cases issue d.settings.tokens .refresh (intText n) d.now none <;> rfl

lemma run_refresh (hd : d.Answers) (hs : (d.store.users.map (·.id)).Nodup) (hn : fits n)
    (hkey : d.settings.tokens.key = p.key) (h : issue p kind (intText n) t life = .ok token) :
    (run (refresh token) d).1 =
      grant (d.now.seconds ≤ (expiry p kind t life).seconds ∧ .refresh = kind)
        d.store n (.denied 401 "Invalid refresh token")
        (.denied 401 "User not found or inactive") (.denied 401 "User not found or inactive")
        (fun u => (run (issueTokens u.id) d).1) := by
  have hverify := Token.verify_issued hkey h .refresh d.now
  simp only [refresh, run_bind, run_settings, run_now, run_ofOutcome, hverify, grant]
  by_cases hlive : d.now.seconds ≤ (expiry p kind t life).seconds ∧ .refresh = kind
  · have hfind : run (Accounts.find (.int n)) d =
        (.ok (d.store.users.find? (·.id == n)), d.asked) :=
      run_found (hd _) (userById_eq hs hn)
    simp only [if_pos hlive, if_neg (intText_ne_empty n), run_bind, run_ofOutcome,
      numberOf_intText hn, hfind]
    cases d.store.users.find? (·.id == n) with
    | none => rfl
    | some u => cases hactive : u.isActive <;> simp [hactive, run_issueTokens]
  · simp only [if_neg hlive]
    rfl

lemma issueTokens_eq_ok {ts : Tokens} : (run (issueTokens n) d).1 = .ok ts ↔
      issue d.settings.tokens .access (intText n) d.now none = .ok ts.access ∧
        issue d.settings.tokens .refresh (intText n) d.now none = .ok ts.refresh := by
  rw [run_issueTokens]
  cases issue d.settings.tokens .access (intText n) d.now none with
  | error e => simp
  | ok access =>
    cases issue d.settings.tokens .refresh (intText n) d.now none with
    | error e => simp
    | ok refresh =>
      cases ts
      simp

lemma exists_issueTokens : (∃ ts, (run (issueTokens n) d).1 = .ok ts) ↔
      ∀ k, (expiry d.settings.tokens k d.now none).inCalendar = true := by
  simp only [issueTokens_eq_ok, ← exists_issue _ _ (intText n)]
  constructor
  · rintro ⟨ts, haccess, hrefresh⟩ k
    cases k with
    | access => exact ⟨_, haccess⟩
    | refresh => exact ⟨_, hrefresh⟩
  · intro h
    obtain ⟨access, haccess⟩ := h .access
    obtain ⟨refresh, hrefresh⟩ := h .refresh
    exact ⟨⟨access, refresh⟩, haccess, hrefresh⟩

lemma issue_eq_error {subject : String} {e : Fault} (h : issue p kind subject t life = .error e) :
    e = .tooLarge "date value out of range" := by
  rw [Token.issue_eq] at h
  split at h
  · cases h
  · exact (Except.error.inj h).symm

lemma issueTokens_eq_error {e : Fault} (h : (run (issueTokens n) d).1 = .error e) :
    e = .tooLarge "date value out of range" := by
  rw [run_issueTokens] at h
  split at h
  · cases h
  · rename_i haccess
    cases h
    exact issue_eq_error haccess
  · rename_i hrefresh
    cases h
    exact issue_eq_error hrefresh

/-- A token that was issued for a number opens to the active user with that number, and to nothing
else: as an access token or as a refresh token, whichever it was issued as, and up to the second in
which it expires. A refresh token is then exchanged for a new pair for the same user, as long as
the calendar has room for both. If only the calendar has no room, that is the error; whatever else
is in the way is answered with 401. -/
theorem opens_as_issued (hd : d.Answers) (hs : (d.store.users.map (·.id)).Nodup) (hn : fits n)
    (hkey : d.settings.tokens.key = p.key) (h : issue p kind (Value.intText n) t life = .ok token) :
    (∀ u, (run (currentUser token) d).1 = .ok u ↔
        kind = .access ∧ d.now.seconds ≤ (expiry p kind t life).seconds ∧ Holder d.store n u) ∧
      (∀ e, (run (currentUser token) d).1 = .error e → Unauthorized e) ∧
      ((∃ ts, (run (refresh token) d).1 = .ok ts) ↔
        kind = .refresh ∧ d.now.seconds ≤ (expiry p kind t life).seconds ∧
          (∃ u, Holder d.store n u) ∧
          ∀ k, (expiry d.settings.tokens k d.now none).inCalendar = true) ∧
      (∀ ts, (run (refresh token) d).1 = .ok ts →
        issue d.settings.tokens .access (Value.intText n) d.now none = .ok ts.access ∧
          issue d.settings.tokens .refresh (Value.intText n) d.now none = .ok ts.refresh) ∧
      ∀ e, (run (refresh token) d).1 = .error e →
        (kind = .refresh ∧ d.now.seconds ≤ (expiry p kind t life).seconds ∧
            (∃ u, Holder d.store n u) → e = .tooLarge "date value out of range") ∧
          (¬(kind = .refresh ∧ d.now.seconds ≤ (expiry p kind t life).seconds ∧
            ∃ u, Holder d.store n u) → Unauthorized e) := by
  rw [run_currentUser hd hs hn hkey h, run_refresh hd hs hn hkey h]
  refine ⟨fun u => ?_, fun e he => ?_, ?_, fun ts hts => ?_, fun e he => ?_⟩
  · rw [grant_eq_ok hs]
    constructor
    · rintro ⟨⟨hlive, hkind⟩, v, hv, hvu⟩
      cases hvu
      exact ⟨hkind.symm, hlive, hv⟩
    · rintro ⟨hkind, hlive, hu⟩
      exact ⟨⟨hlive, hkind.symm⟩, u, hu, rfl⟩
  · rcases grant_eq_error hs ⟨_, _, rfl⟩ ⟨_, _, rfl⟩ ⟨_, _, rfl⟩ he with he | ⟨_, u, _, hu⟩
    · exact he.1
    · cases hu
  · simp only [grant_eq_ok hs]
    constructor
    · rintro ⟨ts, ⟨hlive, hkind⟩, u, hu, hts⟩
      exact ⟨hkind.symm, hlive, ⟨u, hu⟩, exists_issueTokens.mp ⟨ts, hts⟩⟩
    · rintro ⟨hkind, hlive, ⟨u, hu⟩, hroom⟩
      obtain ⟨ts, hts⟩ := exists_issueTokens.mpr hroom
      exact ⟨ts, ⟨hlive, hkind.symm⟩, u, hu, hts⟩
  · obtain ⟨_, u, hu, hissued⟩ := (grant_eq_ok hs).mp hts
    rw [← hu.2.1]
    exact issueTokens_eq_ok.mp hissued
  · rcases grant_eq_error hs ⟨_, _, rfl⟩ ⟨_, _, rfl⟩ ⟨_, _, rfl⟩ he with
      ⟨he, hclosed⟩ | ⟨⟨hlive, hkind⟩, u, hu, herror⟩
    · refine ⟨fun ⟨hkind, hlive, hu⟩ => ?_, fun _ => he⟩
      exact absurd ⟨⟨hlive, hkind.symm⟩, hu⟩ hclosed
    · refine ⟨fun _ => issueTokens_eq_error herror, fun hclosed => ?_⟩
      exact absurd ⟨hkind.symm, hlive, u, hu⟩ hclosed

def member : User :=
  { id := 1, email := "ann@x.io", username := "ann", password := "secret-1", createdAt := ⟨0⟩,
    updatedAt := none }

def deskAt (t : Moment) : Desk := { store := { users := [member] }, now := t }

lemma holder_member (t : Moment) : Holder (deskAt t).store 1 member :=
  ⟨mem_singleton_self _, rfl, rfl⟩

lemma ids_deskAt (t : Moment) : ((deskAt t).store.users.map (·.id)).Nodup := by
  simp [deskAt]

/-- A refresh token is exchanged after 29 days and is no access token; after 31 days it is refused
with 401. -/
theorem exchanged_in_time :
    ∃ token, issue (deskAt ⟨0⟩).settings.tokens .refresh (Value.intText 1) ⟨0⟩ none = .ok token ∧
      (∃ ts, (run (refresh token) (deskAt ⟨29 * Moment.day⟩)).1 = .ok ts) ∧
      (∀ u, (run (currentUser token) (deskAt ⟨29 * Moment.day⟩)).1 ≠ .ok u) ∧
      ∃ e, (run (refresh token) (deskAt ⟨31 * Moment.day⟩)).1 = .error e ∧ Unauthorized e := by
  obtain ⟨token, htoken⟩ := (exists_issue (deskAt ⟨0⟩).settings.tokens .refresh (Value.intText 1)
    ⟨0⟩ none).mpr (by decide)
  have hopens (t : Moment) :=
    opens_as_issued (d := deskAt t) (fun _ => rfl) (ids_deskAt t) (by decide) rfl htoken
  refine ⟨token, htoken, ?_, fun u hu => ?_, ?_⟩
  · exact (hopens _).2.2.1.mpr
      ⟨rfl, by decide, ⟨member, holder_member _⟩, fun k => by cases k <;> decide⟩
  · cases (((hopens _).1 u).mp hu).1
  · cases hlate : (run (refresh token) (deskAt ⟨31 * Moment.day⟩)).1 with
    | ok ts => exact absurd ((hopens _).2.2.1.mp ⟨ts, hlate⟩).2.1 (by decide)
    | error e =>
      exact ⟨e, rfl, ((hopens _).2.2.2.2 e hlate).2 fun hopen => absurd hopen.2.1 (by decide)⟩

/-- On the last day of the calendar a refresh token of an active user has not expired and yet is not
exchanged, as the new ones would expire after that day. -/
theorem not_exchanged_on_last_day : ∃ issued now : Moment, ∃ token,
      issue (deskAt now).settings.tokens .refresh (Value.intText 1) issued none = .ok token ∧
        now.seconds ≤ (expiry (deskAt now).settings.tokens .refresh issued none).seconds ∧
        Holder (deskAt now).store 1 member ∧
        (run (refresh token) (deskAt now)).1 = .error (.tooLarge "date value out of range") := by
  refine ⟨Moment.latest.addMicros (-30 * Moment.day), Moment.latest, ?_⟩
  obtain ⟨token, htoken⟩ := (exists_issue (deskAt Moment.latest).settings.tokens .refresh
    (Value.intText 1) (Moment.latest.addMicros (-30 * Moment.day)) none).mpr (by decide)
  refine ⟨token, htoken, by decide, holder_member _, ?_⟩
  rw [run_refresh (fun _ => rfl) (ids_deskAt _) (by decide) rfl htoken, grant, if_pos (by decide)]
  show (run (issueTokens 1) (deskAt Moment.latest)).1 = _
  rw [run_issueTokens, Token.issue_eq, if_neg (by decide)]

end Api

end ReviewDesk

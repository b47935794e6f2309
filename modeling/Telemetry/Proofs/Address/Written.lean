import Telemetry.Address.Resolve

/-!
# Written addresses — the characters that addresses are made of

Every reader of an address takes hexadecimal digits, points and colons off the front of a text, and
nothing else.  So a host that is a literal address holds no other character
(`IpAddress.isAddressChar_of_parse?`).
-/

namespace Telemetry
namespace Literal

/-- The characters that addresses are written with. -/
def isAddressChar (c : Char) : Bool :=
  (Text.hexValue? c).isSome || c == '.' || c == ':'

def Takes (cs rest : List Char) : Prop :=
  ∃ front, cs = front ++ rest ∧ ∀ c ∈ front, isAddressChar c = true

theorem Takes.refl (cs : List Char) : Takes cs cs :=
  ⟨[], rfl, by simp⟩

theorem Takes.trans {cs ds es : List Char} (h : Takes cs ds) (h' : Takes ds es) : Takes cs es := by
  obtain ⟨front, rfl, hfront⟩ := h
  obtain ⟨front', rfl, hfront'⟩ := h'
  exact ⟨front ++ front', by simp, List.forall_mem_append.2 ⟨hfront, hfront'⟩⟩

instance : Trans Takes Takes Takes :=
  ⟨Takes.trans⟩

variable {cs rest : List Char}

theorem takes_number {radix greatest n : Nat} {width : Option Nat} {leadingZero : Bool}
    (h : number radix width leadingZero greatest cs = some (n, rest)) : Takes cs rest := by
  let isDigit (c : Char) : Bool := (Text.hexValue? c).any (· < radix)
  have hrest : cs.drop (cs.takeWhile isDigit).length = rest := by
    simp only [number, Option.ite_none_left_eq_some, Option.some.injEq, Prod.mk.injEq] at h
    exact h.2.2
  have hsplit : cs.takeWhile isDigit ++ cs.dropWhile isDigit = cs := List.takeWhile_append_dropWhile
  refine ⟨cs.takeWhile isDigit, ?_, ?_⟩
  · calc cs = cs.takeWhile isDigit ++ cs.drop (cs.takeWhile isDigit).length :=
          List.prefix_iff_eq_append.1 ⟨_, hsplit⟩ |>.symm
      _ = cs.takeWhile isDigit ++ rest := by rw [hrest]
  · intro c hc
    have hdigit : isDigit c = true := List.all_eq_true.1 List.all_takeWhile c hc
    have hsome : (Text.hexValue? c).isSome = true := Option.isSome_of_any hdigit
    simp [isAddressChar, hsome]

theorem takes_char {c : Char} (hc : isAddressChar c = true) (h : char c cs = some rest) :
    Takes cs rest := by
  cases cs with
  | nil => simp [char] at h
  | cons d cs =>
      by_cases hd : d = c
      · simp only [char, if_pos hd, Option.some.injEq] at h
        subst hd h
        exact ⟨[d], rfl, by simpa using hc⟩
      · simp [char, hd] at h

theorem takes_ipv4 {ip : Ipv4} (h : ipv4 cs = some (ip, rest)) : Takes cs rest := by
  have hpoint : isAddressChar '.' = true := by decide
  have hoctet (cs : List Char) : ∀ x rest,
      (number 10 (some 3) false 255 cs).map (fun read => (read.1.toUInt8, read.2)) = some (x, rest) →
        Takes cs rest := by
    intro x rest hx
    obtain ⟨⟨n, rest'⟩, hn, hpair⟩ := Option.map_eq_some_iff.1 hx
    cases hpair
    exact takes_number hn
  obtain ⟨⟨a, cs₁⟩, ha, h⟩ := Option.bind_eq_some_iff.1 h
  obtain ⟨cs₂, hab, h⟩ := Option.bind_eq_some_iff.1 h
  obtain ⟨⟨b, cs₃⟩, hb, h⟩ := Option.bind_eq_some_iff.1 h
  obtain ⟨cs₄, hbc, h⟩ := Option.bind_eq_some_iff.1 h
  obtain ⟨⟨c, cs₅⟩, hc, h⟩ := Option.bind_eq_some_iff.1 h
  obtain ⟨cs₆, hcd, h⟩ := Option.bind_eq_some_iff.1 h
  obtain ⟨⟨d, _⟩, hd, h⟩ := Option.bind_eq_some_iff.1 h
  cases h
  calc
    Takes cs cs₁ := hoctet _ _ _ ha
    Takes _ cs₂ := takes_char hpoint hab
    Takes _ cs₃ := hoctet _ _ _ hb
    Takes _ cs₄ := takes_char hpoint hbc
    Takes _ cs₅ := hoctet _ _ _ hc
    Takes _ cs₆ := takes_char hpoint hcd
    Takes _ rest := hoctet _ _ _ hd

theorem takes_groups (first : Bool) (left : Nat) (cs : List Char) :
    Takes cs (groups first left cs).2.2 := by
  induction left generalizing first cs with
  | zero => exact .refl cs
  | succ left ih =>
      rw [groups]
      split
      · exact .refl cs
      next body hbody =>
      have hfront : Takes cs body := by
        cases first with
        | true =>
            cases hbody
            exact .refl cs
        | false => exact takes_char (by decide) hbody
      split
      · next ip rest hip =>
        split at hip
        · contradiction
        · exact hfront.trans (takes_ipv4 hip)
      · split
        · exact .refl cs
        · next g rest hg =>
          calc
            Takes cs body := hfront
            Takes _ rest := takes_number hg
            Takes _ _ := ih false rest

theorem takes_ipv6 {ip : Ipv6} (h : ipv6 cs = some (ip, rest)) : Takes cs rest := by
  have hcolon : isAddressChar ':' = true := by decide
  -- the groups in front of the gap, or all of them
  have hhead := takes_groups true 8 cs
  rw [ipv6] at h
  generalize groups true 8 cs = head at h hhead
  obtain ⟨head, embedded, middle⟩ := head
  dsimp only at h hhead
  split at h
  · cases h
    exact hhead
  split at h
  · contradiction
  obtain ⟨cs₁, hfirst, h⟩ := Option.bind_eq_some_iff.1 h
  obtain ⟨cs₂, hsecond, h⟩ := Option.bind_eq_some_iff.1 h
  have htail := takes_groups true (7 - head.length) cs₂
  generalize groups true (7 - head.length) cs₂ = tail at h htail
  obtain ⟨tail, _, _⟩ := tail
  dsimp only at h htail
  split at h
  · cases h
    calc
      Takes cs middle := hhead
      Takes _ cs₁ := takes_char hcolon hfirst
      Takes _ cs₂ := takes_char hcolon hsecond
      Takes _ rest := htail
  · contradiction

end Literal

/-- A literal address is written with hexadecimal digits, points and colons alone. -/
theorem IpAddress.isAddressChar_of_parse? {s : String} {ip : IpAddress} (h : parse? s = some ip) :
    ∀ c ∈ s.toList, Literal.isAddressChar c = true := by
  -- what is left of the whole text is nothing
  have hwhole {rest : List Char} (htakes : Literal.Takes s.toList rest) (hrest : rest = []) :
      ∀ c ∈ s.toList, Literal.isAddressChar c = true := by
    obtain ⟨front, hfront, hall⟩ := htakes
    rw [hfront, hrest, List.append_nil]
    exact hall
  rw [parse?] at h
  split at h
  · next r hr =>
    obtain ⟨ip, rest⟩ := r
    cases rest with
    | nil => exact hwhole (Literal.takes_ipv4 hr) rfl
    | cons c rest => simp [Literal.whole] at h
  · cases hr : Literal.ipv6 s.toList with
    | none => simp [hr, Literal.whole] at h
    | some r =>
        obtain ⟨ip, rest⟩ := r
        cases rest with
        | nil => exact hwhole (Literal.takes_ipv6 hr) rfl
        | cons c rest => simp [hr, Literal.whole] at h

end Telemetry

import BazarApi.Json.Canonical

/- `JSON.parse`. A number is kept as its literal. The reading of a flat object whose
   strings need no escape is proved: it gives the members back. -/
namespace Json

def isSpace (c : CodeUnit) : Bool := c.val = 0x20 || c.val = 0x09 || c.val = 0x0A || c.val = 0x0D

def skip (s : JsString) : JsString := s.dropWhile isSpace

def isDigit (c : CodeUnit) : Bool := 48 ≤ c.val && c.val ≤ 57

def isHex (c : CodeUnit) : Bool :=
  isDigit c || (65 ≤ c.val && c.val ≤ 70) || (97 ≤ c.val && c.val ≤ 102)

def hexOf (c : CodeUnit) : Nat :=
  if c.val ≤ 57 then c.val - 48 else if c.val ≤ 70 then c.val - 55 else c.val - 87

/-- A string after its opening mark: its units, and what follows the closing one. -/
def parseString : JsString → Option (JsString × JsString)
  | [] => none
  | c :: s =>
    if c = unit '"' then some ([], s)
    else if c = unit '\\' then
      match s with
      | [] => none
      | d :: s =>
        if d = unit 'u' then
          match s with
          | w :: x :: y :: z :: s =>
            if [w, x, y, z].all isHex then
              (parseString s).map fun r => (Fin.ofNat 65536
                (hexOf w * 4096 + hexOf x * 256 + hexOf y * 16 + hexOf z) :: r.1, r.2)
            else none
          | _ => none
        else if d ∈ text "\"\\/bfnrt" then (parseString s).map fun r => (unescape d :: r.1, r.2)
        else none
    else if c.val < 0x20 then none
    else (parseString s).map fun r => (c :: r.1, r.2)

/-- The end of a number: an exponent, or nothing. -/
def isExponent : JsString → Bool
  | [] => true
  | e :: s =>
    let digits := match s with
      | c :: s' => if c = unit '+' ∨ c = unit '-' then s' else s
      | [] => []
    (e = unit 'e' || e = unit 'E') && !digits.isEmpty && digits.all isDigit

def isFraction (s : JsString) : Bool :=
  match s with
  | c :: s' =>
    if c = unit '.' then !(s'.takeWhile isDigit).isEmpty && isExponent (s'.dropWhile isDigit)
    else isExponent s
  | [] => true

def isNumber (s : JsString) : Bool :=
  let s := match s with
    | c :: s' => if c = unit '-' then s' else s
    | [] => []
  let digits := s.takeWhile isDigit
  !digits.isEmpty && (digits.length = 1 || digits.head? ≠ some (unit '0')) &&
    isFraction (s.dropWhile isDigit)

def parseNumber (s : JsString) : Option (Tree JsString × JsString) :=
  let literal := s.takeWhile fun c => decide (IsNumberUnit c)
  if isNumber literal then some (.num literal, s.drop literal.length) else none

def parseWord (w : JsString) (v : Tree JsString) (s : JsString) : Option (Tree JsString × JsString) :=
  if w.isPrefixOf s then some (v, s.drop w.length) else none

mutual

/-- A value, and what follows it. -/
def parseValue : Nat → JsString → Option (Tree JsString × JsString)
  | 0, _ => none
  | fuel + 1, s =>
    match skip s with
    | [] => none
    | c :: s =>
      if c = unit '"' then (parseString s).map fun r => (.str r.1, r.2)
      else if c = unit '{' then
        match skip s with
        | [] => none
        | d :: s' =>
          if d = unit '\x7d' then some (.obj [], s')
          else (parseMembers fuel (d :: s')).map fun r => (.obj r.1, r.2)
      else if c = unit '[' then
        match skip s with
        | [] => none
        | d :: s' =>
          if d = unit ']' then some (.arr [], s')
          else (parseElements fuel (d :: s')).map fun r => (.arr r.1, r.2)
      else if c = unit 't' then parseWord (text "true") (.bool true) (c :: s)
      else if c = unit 'f' then parseWord (text "false") (.bool false) (c :: s)
      else if c = unit 'n' then parseWord (text "null") .null (c :: s)
      else parseNumber (c :: s)

/-- Members up to the closing brace. -/
def parseMembers : Nat → JsString → Option (List (JsString × Tree JsString) × JsString)
  | 0, _ => none
  | fuel + 1, s =>
    match s with
    | [] => none
    | q :: s =>
      if q = unit '"' then
        (parseString s).bind fun k =>
          match skip k.2 with
          | [] => none
          | c :: s =>
            if c = unit ':' then
              (parseValue fuel s).bind fun v =>
                match skip v.2 with
                | [] => none
                | d :: s =>
                  if d = unit ',' then (parseMembers fuel (skip s)).map fun r => ((k.1, v.1) :: r.1, r.2)
                  else if d = unit '\x7d' then some ([(k.1, v.1)], s)
                  else none
            else none
      else none

/-- Elements up to the closing bracket. -/
def parseElements : Nat → JsString → Option (List (Tree JsString) × JsString)
  | 0, _ => none
  | fuel + 1, s =>
    (parseValue fuel s).bind fun v =>
      match skip v.2 with
      | [] => none
      | d :: s =>
        if d = unit ',' then (parseElements fuel s).map fun r => (v.1 :: r.1, r.2)
        else if d = unit ']' then some ([v.1], s)
        else none

end

/-- `JSON.parse`; `none` where it throws. -/
def parse (s : JsString) : Option (Tree JsString) :=
  (parseValue (s.length + 1) s).bind fun r => if (skip r.2).isEmpty then some r.1 else none

/-- A property of what was parsed; the last of two members of one key counts. -/
def Tree.get? {N : Type} (t : Tree N) (k : JsString) : Option (Tree N) :=
  match t with
  | .obj fields => (fields.reverse.find? (·.1 = k)).map Prod.snd
  | _ => none

/-- `JSON.stringify` of an object literal whose values are printed already. -/
def stringify (fields : List (JsString × JsString)) : JsString :=
  unit '{' :: (comma (fields.map member) ++ [unit '\x7d'])

/-! What is printed is read back. -/

/-- A text whose literal is itself between quotation marks. -/
def Clear (s : JsString) : Prop :=
  ∀ c ∈ s, 0x20 ≤ c.val ∧ c.val < 0x80 ∧ c ≠ unit '"' ∧ c ≠ unit '\\'

theorem body_clear {s : JsString} (h : Clear s) : body s = s := by
  induction s with
  | nil => rfl
  | cons c s ih =>
    obtain ⟨h1, h2, h3, h4⟩ := h c List.mem_cons_self
    have halone : escapeAlone c = [c] := by
      unfold escapeAlone IsLead IsTrail escape
      rw [if_neg (by omega), if_neg h3, if_neg h4, if_neg (by omega), if_neg (by omega),
        if_neg (by omega), if_neg (by omega), if_neg (by omega), if_neg (by omega)]
    have ih := ih fun d hd => h d (List.mem_cons_of_mem _ hd)
    cases s with
    | nil => exact halone
    | cons d s =>
      have hlead : ¬ (IsLead c ∧ IsTrail d) := fun hl => by
        have := hl.1.1
        omega
      unfold body
      rw [if_neg hlead, halone, ih]
      rfl

theorem quote_clear {s : JsString} (h : Clear s) : quote s = unit '"' :: (s ++ [unit '"']) := by
  unfold quote
  rw [body_clear h]

theorem string_clear {s : JsString} (h : Clear s) (rest : JsString) :
    parseString (s ++ unit '"' :: rest) = some (s, rest) := by
  induction s with
  | nil =>
    show parseString (unit '"' :: rest) = _
    unfold parseString
    rw [if_pos rfl]
  | cons c s ih =>
    obtain ⟨h1, h2, h3, h4⟩ := h c List.mem_cons_self
    have ih := ih fun d hd => h d (List.mem_cons_of_mem _ hd)
    rw [List.cons_append]
    unfold parseString
    rw [if_neg h3, if_neg h4, if_neg (by omega), ih]
    rfl

theorem skip_cons {c : CodeUnit} (h : isSpace c = false) (s : JsString) : skip (c :: s) = c :: s :=
  List.dropWhile_cons_of_neg (by rw [h]; exact Bool.false_ne_true)

/-- A printed value that is read back in front of a comma or a closing brace. -/
def ReadsAs (t : JsString) (v : Tree JsString) : Prop :=
  ∀ fuel d rest, d = unit ',' ∨ d = unit '\x7d' → parseValue (fuel + 1) (t ++ d :: rest) = some (v, d :: rest)

theorem readsAs_quote {s : JsString} (h : Clear s) : ReadsAs (quote s) (.str s) := by
  intro fuel d rest _
  rw [quote_clear h, List.cons_append, List.append_assoc, List.singleton_append]
  unfold parseValue
  rw [skip_cons (by decide)]
  dsimp only
  rw [if_pos rfl, string_clear h]
  rfl

/-- One member, in front of a comma or the closing brace. -/
theorem members_member {k t : JsString} {v : Tree JsString} (hk : Clear k) (ht : ReadsAs t v)
    (fuel : Nat) (rest : JsString) :
    parseMembers (fuel + 2) (member (k, t) ++ unit ',' :: rest) =
        ((parseMembers (fuel + 1) (skip rest)).map fun r => ((k, v) :: r.1, r.2)) ∧
      parseMembers (fuel + 2) (member (k, t) ++ unit '\x7d' :: rest) = some ([(k, v)], rest) := by
  have hmember : ∀ x, member (k, t) ++ x = unit '"' :: (k ++ unit '"' :: (unit ':' :: (t ++ x))) := by
    intro x
    unfold member
    rw [quote_clear hk]
    simp only [List.cons_append, List.append_assoc, List.nil_append]
  have hcolon : ∀ x, skip (unit ':' :: x) = unit ':' :: x := fun x => skip_cons (by decide) x
  constructor
  · rw [hmember, parseMembers]
    simp only [if_true, string_clear hk, Option.bind_some, hcolon, ht fuel (unit ',') rest (.inl rfl),
      skip_cons (show isSpace (unit ',') = false by decide)]
  · have hne : unit '\x7d' ≠ unit ',' := by decide
    rw [hmember, parseMembers]
    simp only [if_true, string_clear hk, Option.bind_some, hcolon, ht fuel (unit '\x7d') rest (.inr rfl),
      skip_cons (show isSpace (unit '\x7d') = false by decide), if_neg hne]

theorem members_comma {fields : List (JsString × JsString × Tree JsString)} (rest : JsString) :
    ∀ fuel : Nat, fields ≠ [] → fields.length < fuel →
      (∀ f ∈ fields, Clear f.1 ∧ ReadsAs f.2.1 f.2.2) →
      parseMembers fuel (comma (fields.map fun f => member (f.1, f.2.1)) ++ unit '\x7d' :: rest) =
        some (fields.map fun f => (f.1, f.2.2), rest) := by
  induction fields with
  | nil => exact fun _ h => absurd rfl h
  | cons f fs ih =>
    intro fuel _ hf hk
    obtain ⟨hclear, hreads⟩ := hk f List.mem_cons_self
    obtain ⟨n, rfl⟩ : ∃ n, fuel = n + 2 := ⟨fuel - 2, by
      rw [List.length_cons] at hf
      omega⟩
    cases fs with
    | nil =>
      have hcomma : comma ([f].map fun f => member (f.1, f.2.1)) = member (f.1, f.2.1) :=
        (comma_cons _ _).trans (List.append_nil _)
      rw [hcomma, (members_member hclear hreads n rest).2]
      rfl
    | cons g gs =>
      have htail := ih (n + 1) (List.cons_ne_nil _ _) (by
        rw [List.length_cons] at hf
        omega) fun x hx => hk x (List.mem_cons_of_mem _ hx)
      have hcomma : comma ((f :: g :: gs).map fun f => member (f.1, f.2.1)) ++ unit '\x7d' :: rest =
          member (f.1, f.2.1) ++ unit ',' ::
            (comma ((g :: gs).map fun f => member (f.1, f.2.1)) ++ unit '\x7d' :: rest) := by
        simp only [List.map_cons, comma_cons, commaTail, List.flatMap_cons, List.append_assoc,
          List.cons_append]
      have hskip : skip (comma ((g :: gs).map fun f => member (f.1, f.2.1)) ++ unit '\x7d' :: rest) =
          comma ((g :: gs).map fun f => member (f.1, f.2.1)) ++ unit '\x7d' :: rest := by
        rw [List.map_cons, comma_cons, List.append_assoc]
        exact skip_cons (by decide) _
      rw [hcomma, (members_member hclear hreads n _).1, hskip, htail]
      rfl

theorem length_commaTail (ts : List JsString) : ts.length ≤ (commaTail ts).length := by
  induction ts with
  | nil => exact le_refl _
  | cons t ts ih =>
    unfold commaTail at ih ⊢
    rw [List.flatMap_cons, List.length_append, List.length_cons, List.length_cons]
    omega

/-- A flat object is read back. -/
theorem parse_stringify {fields : List (JsString × JsString × Tree JsString)} (hne : fields ≠ [])
    (hk : ∀ f ∈ fields, Clear f.1 ∧ ReadsAs f.2.1 f.2.2) :
    parse (stringify (fields.map fun f => (f.1, f.2.1))) = some (.obj (fields.map fun f => (f.1, f.2.2))) := by
  obtain ⟨f, fs, rfl⟩ := List.exists_cons_of_ne_nil hne
  have hlen : (f :: fs).length < (stringify ((f :: fs).map fun f => (f.1, f.2.1))).length := by
    have hl := length_commaTail (((fs.map fun f => (f.1, f.2.1)).map member))
    unfold stringify
    rw [List.map_cons, List.map_cons, comma_cons]
    simp only [List.length_cons, List.length_append, List.length_map, List.length_nil] at hl ⊢
    omega
  have hread := members_comma [] _ hne hlen hk
  have htext : stringify ((f :: fs).map fun f => (f.1, f.2.1)) =
      unit '{' :: (comma ((f :: fs).map fun f => member (f.1, f.2.1)) ++ [unit '\x7d']) := by
    unfold stringify
    rw [List.map_map]
    rfl
  have hquote : ∃ y, comma ((f :: fs).map fun f => member (f.1, f.2.1)) ++ [unit '\x7d'] = unit '"' :: y :=
    ⟨_, by rw [List.map_cons, comma_cons, List.append_assoc]; rfl⟩
  obtain ⟨y, hy⟩ := hquote
  rw [hy] at hread htext
  unfold parse parseValue
  rw [htext] at hread ⊢
  rw [skip_cons (by decide)]
  dsimp only
  rw [if_neg (by decide), if_pos rfl, skip_cons (by decide)]
  dsimp only
  rw [if_neg (by decide), hread]
  rfl

theorem readsAs_one : ReadsAs (text "1") (.num (text "1")) := by
  intro fuel d rest hd
  have htake : (unit '1' :: d :: rest).takeWhile (fun c => decide (IsNumberUnit c)) = [unit '1'] := by
    rw [List.takeWhile_cons_of_pos (by decide), List.takeWhile_cons_of_neg]
    rcases hd with rfl | rfl <;> decide
  show parseValue (fuel + 1) (unit '1' :: d :: rest) = _
  unfold parseValue
  rw [skip_cons (by decide)]
  dsimp only
  rw [if_neg (by decide), if_neg (by decide), if_neg (by decide), if_neg (by decide),
    if_neg (by decide), if_neg (by decide)]
  unfold parseNumber
  rw [htake]
  rfl

end Json

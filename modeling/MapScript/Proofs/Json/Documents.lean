import MapScript.Proofs.Json.Lexing

/-!
# Documents read back

The compact text of a value is read as that value, as long as the value is one that is written:
`Json.parse_compact`.  The induction runs the grammar over the text of a value in the middle of a
document, with containers still open around it and text still to come.
-/

namespace MapScript.Json

/-! ## Written values -/

/-- The string denotes a text and escapes no more than it must. -/
def Literal.Written (literal : Literal) : Prop := ∃ s, literal = .ofString s

mutual

/-- The value has no real number, and its strings are those of texts. -/
def Written : Json → Prop
  | .null | .bool _ | .int _ => True
  | .real _ => False
  | .str literal => literal.Written
  | .arr vs => ItemsWritten vs
  | .obj ms => MembersWritten ms

def ItemsWritten : List Json → Prop
  | [] => True
  | v :: vs => Written v ∧ ItemsWritten vs

def MembersWritten : List (Literal × Json) → Prop
  | [] => True
  | (name, v) :: ms => name.Written ∧ Written v ∧ MembersWritten ms

end

/-! ## Steps of the grammar -/

/-- The text after a value inside a document. -/
def Delimited (rest : List Char) : Prop :=
  ∀ c ∈ rest.head?, c = ',' ∨ c = ']' ∨ c = '\x7d'

theorem Delimited.endsNumber {rest : List Char} (h : Delimited rest) : Token.EndsNumber rest := by
  intro c hc
  rcases h c hc with rfl | rfl | rfl <;> decide

theorem delimited_items (vs : List Json) (rest : List Char) :
    Delimited ((itemTokens vs).flatMap Token.spell ++ rest) := by
  intro c hc
  cases vs with
  | nil =>
      cases hc
      exact .inr (.inl rfl)
  | cons v vs =>
      cases hc
      exact .inl rfl

theorem delimited_members (ms : List (Literal × Json)) (rest : List Char) :
    Delimited ((memberTokens ms).flatMap Token.spell ++ rest) := by
  intro c hc
  cases ms with
  | nil =>
      cases hc
      exact .inr (.inr rfl)
  | cons m ms =>
      cases hc
      exact .inl rfl

theorem run_spell {state next : State} (t : Token) {ts : List Token} {rest : List Char}
    (ht : t.Written) (hrest : t.Follows (ts.flatMap Token.spell ++ rest))
    (hstep : state.step t = .ok next) :
    run state (Token.cut ((t :: ts).flatMap Token.spell ++ rest)) =
      run next (Token.cut (ts.flatMap Token.spell ++ rest)) := by
  rw [List.flatMap_cons, List.append_assoc, Token.cut_spell ht hrest, run, hstep]

/-- A value is next, to go into the given containers. An array that was just opened could also
end. -/
def State.Awaits (state : State) (outer : List Frame) : Prop :=
  ∀ t, t ≠ .closeBracket → state.step t = State.start outer t

theorem State.awaits_value (outer : List Frame) : (State.value outer).Awaits outer := by
  intro t _
  rfl

theorem State.awaits_firstItem (outer : List Frame) :
    (State.firstItem outer).Awaits (.array [] :: outer) := by
  intro t ht
  cases t <;> first | rfl | exact absurd rfl ht

/-! ## Values -/

/-- A value of one token. -/
theorem run_single {t : Token} {v : Json} {state : State} {outer : List Frame} {rest : List Char}
    (ht : t.Written) (hopen : t ≠ .closeBracket) (hrest : t.Follows rest)
    (hstart : State.start outer t = .ok (State.deliver v outer)) (hstate : state.Awaits outer) :
    run state (Token.cut ([t].flatMap Token.spell ++ rest)) =
      run (State.deliver v outer) (Token.cut rest) :=
  run_spell t ht hrest ((hstate t hopen).trans hstart)

mutual

theorem run_tokens : ∀ (v : Json), v.Written → ∀ {state : State} {outer : List Frame}
    {rest : List Char}, state.Awaits outer → Delimited rest →
    run state (Token.cut (v.tokens.flatMap Token.spell ++ rest)) =
      run (State.deliver v outer) (Token.cut rest)
  | .null, _, _, _, _, hstate, _ => run_single trivial nofun trivial rfl hstate
  | .bool _, _, _, _, _, hstate, _ => run_single trivial nofun trivial rfl hstate
  | .int _, _, _, _, _, hstate, hrest => run_single trivial nofun hrest.endsNumber rfl hstate
  | .real _, hv, _, _, _, _, _ => hv.elim
  | .str _, hv, _, _, _, hstate, _ => run_single hv nofun trivial rfl hstate
  | .arr [], _, state, outer, rest, hstate, _ => by
      rw [tokens, run_spell .openBracket trivial trivial (hstate .openBracket nofun)]
      exact run_spell .closeBracket trivial trivial rfl
  | .arr (v :: vs), hv, state, outer, rest, hstate, _ => by
      rw [Written, ItemsWritten] at hv
      rw [tokens, run_spell .openBracket trivial trivial (hstate .openBracket nofun),
        List.flatMap_append, List.append_assoc,
        run_tokens v hv.1 (State.awaits_firstItem outer) (delimited_items vs rest)]
      exact run_itemTokens vs hv.2 [v] outer rest
  | .obj [], _, state, outer, rest, hstate, _ => by
      rw [tokens, run_spell .openBrace trivial trivial (hstate .openBrace nofun)]
      exact run_spell .closeBrace trivial trivial rfl
  | .obj ((name, v) :: ms), hv, state, outer, rest, hstate, _ => by
      rw [Written, MembersWritten] at hv
      rw [tokens, run_spell .openBrace trivial trivial (hstate .openBrace nofun),
        run_spell (.str name) hv.1 trivial rfl, run_spell .colon trivial trivial rfl,
        List.flatMap_append, List.append_assoc,
        run_tokens v hv.2.1 (State.awaits_value _) (delimited_members ms rest)]
      exact run_memberTokens ms hv.2.2 [(name, v)] outer rest

theorem run_itemTokens : ∀ (vs : List Json), ItemsWritten vs → ∀ (items : List Json)
    (outer : List Frame) (rest : List Char),
    run (.afterItem items outer) (Token.cut ((itemTokens vs).flatMap Token.spell ++ rest)) =
      run (State.deliver (.arr (items.reverse ++ vs)) outer) (Token.cut rest)
  | [], _, items, outer, rest => by
      rw [itemTokens, List.append_nil]
      exact run_spell .closeBracket trivial trivial rfl
  | v :: vs, hvs, items, outer, rest => by
      rw [ItemsWritten] at hvs
      rw [itemTokens, run_spell .comma trivial trivial rfl, List.flatMap_append, List.append_assoc,
        run_tokens v hvs.1 (State.awaits_value _) (delimited_items vs rest)]
      have hitems := run_itemTokens vs hvs.2 (v :: items) outer rest
      rwa [List.reverse_cons, List.append_assoc, List.singleton_append] at hitems

theorem run_memberTokens : ∀ (ms : List (Literal × Json)), MembersWritten ms →
    ∀ (members : List (Literal × Json)) (outer : List Frame) (rest : List Char),
    run (.afterMember members outer) (Token.cut ((memberTokens ms).flatMap Token.spell ++ rest)) =
      run (State.deliver (.obj (members.reverse ++ ms)) outer) (Token.cut rest)
  | [], _, members, outer, rest => by
      rw [memberTokens, List.append_nil]
      exact run_spell .closeBrace trivial trivial rfl
  | (name, v) :: ms, hms, members, outer, rest => by
      rw [MembersWritten] at hms
      rw [memberTokens, run_spell .comma trivial trivial rfl,
        run_spell (.str name) hms.1 trivial rfl, run_spell .colon trivial trivial rfl,
        List.flatMap_append, List.append_assoc,
        run_tokens v hms.2.1 (State.awaits_value _) (delimited_members ms rest)]
      have hmembers := run_memberTokens ms hms.2.2 ((name, v) :: members) outer rest
      rwa [List.reverse_cons, List.append_assoc, List.singleton_append] at hmembers

end

/-- What is written is read back. -/
theorem parse_compact {v : Json} (hv : v.Written) : parse v.compact = .ok v := by
  have hrun : run (.value []) (Token.cut (v.tokens.flatMap Token.spell ++ [])) =
      run (State.deliver v []) (Token.cut []) :=
    run_tokens v hv (State.awaits_value []) nofun
  rw [List.append_nil] at hrun
  rw [parse, compact, String.toList_ofList, hrun, Token.cut]
  rfl

/-! ## Building written values -/

theorem itemsWritten_iff {vs : List Json} : ItemsWritten vs ↔ ∀ v ∈ vs, v.Written := by
  induction vs with
  | nil => simp [ItemsWritten]
  | cons v vs ih => rw [ItemsWritten, ih, List.forall_mem_cons]

theorem membersWritten_iff {ms : List (Literal × Json)} :
    MembersWritten ms ↔ ∀ m ∈ ms, m.1.Written ∧ m.2.Written := by
  induction ms with
  | nil => simp [MembersWritten]
  | cons m ms ih =>
      obtain ⟨name, v⟩ := m
      rw [MembersWritten, ih, List.forall_mem_cons, and_assoc]

theorem written_text (s : String) : (text s).Written := ⟨s, rfl⟩

theorem written_record {ms : List (String × Json)} (h : ∀ m ∈ ms, m.2.Written) :
    (record ms).Written := by
  rw [record, Written, membersWritten_iff, List.forall_mem_map]
  exact fun m hm => ⟨⟨m.1, rfl⟩, h m hm⟩

theorem written_list {α : Type} {f : α → Json} {items : List α} (h : ∀ a ∈ items, (f a).Written) :
    (list f items).Written := by
  rw [list, Written, itemsWritten_iff, List.forall_mem_map]
  exact h

end MapScript.Json

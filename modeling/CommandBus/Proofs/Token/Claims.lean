import CommandBus.Proofs.Json.Records
import CommandBus.Proofs.Text.Cutting
import CommandBus.Token.Provider

/-!
# Claims read back

The document of claims is read back as the claims, and names no audience.  What is not kept is
the set of authorities: the names are joined by commas and cut apart again, so that a name with
a comma comes back as several names, or as none.

## Key results

- `claims?_render`: the document of claims is read back
- `validate_make`: the window in which claims hold
- `mem_authorityNames_intercalate`: what the joined names come back as
- `claimed_eq_self_iff`: an identity comes back as it was exactly if its authorities have no comma,
  no blanks around them, and are not empty
-/

namespace CommandBus

open Text

/-! ## The document -/

namespace TokenClaims

open Json (Reads Skips)
open Json.Codec (Gathers)

/-- A signed word is in the range of signed words. -/
private theorem holds_ofInt64 (n : Int64) :
    Number.IntegerRange.long.holds (Json.Integer.ofInt64 n).value = true := by
  have hge := n.le_toInt
  have hlt := n.toInt_lt
  rw [Number.IntegerRange.holds, Bool.and_eq_true]
  exact ⟨decide_eq_true hge, decide_eq_true (Int.le_of_lt_add_one hlt)⟩

private theorem reads_claims (claims : TokenClaims) :
    Reads (codec.read Json.maxDepth) claims.toJson.chars claims := by
  have hissued : Reads ((Json.Codec.integer "i64" .long).read 127)
      (Json.integer (.ofInt64 claims.issuedAt)).chars claims.issuedAt.toInt :=
    Json.reads_integer (holds_ofInt64 claims.issuedAt) 127
  have hexpires : Reads ((Json.Codec.integer "i64" .long).read 127)
      (Json.integer (.ofInt64 claims.expiresAt)).chars claims.expiresAt.toInt :=
    Json.reads_integer (holds_ofInt64 claims.expiresAt) 127
  unfold codec toJson
  apply Json.Codec.reads_record
  -- the members are written in the order of the fields, each into its own slot
  · exact .field rfl rfl (Json.Codec.reads_field (Json.reads_string _ _) _ _ _ _ _)
      (.field rfl rfl (Json.Codec.reads_field (Json.reads_string _ _) _ _ _ _ _)
        (.field rfl rfl (Json.Codec.reads_field hissued _ _ _ _ _)
          (.field rfl rfl (Json.Codec.reads_field hexpires _ _ _ _ _) .nil)))
  · simp only [Json.Codec.required, bind, Except.bind, Int64.ofInt_toInt]
    rfl
  · decide

end TokenClaims

namespace Token

open Json (Reads Skips)

/-- A registered claim is read as its value is. -/
private theorem reads_registered {α : Type} {codec : Json.Codec α} {depth : Json.Depth}
    {cs : List Char} {a : α} (h : Reads (codec.read depth) cs a) (name : String)
    (keep : RegisteredDraft → α → RegisteredDraft) (absent : Bool) (draft : RegisteredDraft) :
    Reads ((registered name codec keep absent).read draft depth) cs
      (keep { draft with seen := name :: draft.seen } a) :=
  Json.reads_map h (keep { draft with seen := name :: draft.seen })

/-- An integer is a flat value. -/
private theorem reads_flat_integer (depth : Json.Depth) (n : Json.Integer) :
    Reads (flat.read depth) (Json.integer n).chars () := by
  intro rest p hrest
  obtain ⟨p', hp⟩ := Json.skips_integer n rest p hrest
  obtain ⟨c, cs, heq, hc⟩ := Json.Cursor.intText_cons n.value
  refine ⟨p', ?_⟩
  rw [Json.chars, heq, List.cons_append] at hp ⊢
  simp only [flat, Json.skipSpaces_cons hc.isSpace]
  split
  · next h => exact absurd (List.cons.inj h).1 (hc.ne (by decide) (by decide))
  · next h => exact absurd (List.cons.inj h).1 (hc.ne (by decide) (by decide))
  · simp only [hp, Except.map]

/-- The claims that are written name no audience. -/
private theorem reads_audience (claims : TokenClaims) :
    Reads (audienceCodec.read Json.maxDepth) claims.toJson.chars .null := by
  unfold audienceCodec TokenClaims.toJson
  apply Json.Codec.reads_record
  -- the authorities and the issue are no registered claims and are stepped over
  · exact .field rfl rfl (reads_registered (Json.reads_readValue_string _ _) _ _ _ _)
      (.other rfl (Json.skips_string _)
        (.other rfl (Json.skips_integer _)
          (.field rfl rfl (reads_registered (reads_flat_integer _ _) _ _ _ _) .nil)))
  · rfl
  · decide

/-- The document of claims is read back as the claims. -/
theorem claims?_render (claims : TokenClaims) : claims? claims.toJson.render = some claims := by
  have hclaims := Json.Codec.parse_of_reads (TokenClaims.reads_claims claims)
  have haudience := Json.Codec.parse_of_reads (reads_audience claims)
  simp only [claims?, hclaims, haudience]
  rfl

end Token

/-! ## The window -/

/-- A window of some length leads so many seconds on, out of a leap second too. -/
theorem Instant.seconds_of_addSeconds? {t later : Instant} {n : Int} (hn : 0 < n)
    (h : t.addSeconds? n = some later) : later.seconds = t.seconds + n := by
  unfold addSeconds? at h
  rw [if_pos hn] at h
  split at h
  · exact (ofParts?_eq_some_iff.1 h).1
  · exact (ofParts?_eq_some_iff.1 h).1

/-- The seconds of an instant fit into a signed word. -/
theorem Instant.toInt_ofInt_seconds (t : Instant) : (Int64.ofInt t.seconds).toInt = t.seconds := by
  have hge := t.seconds_ge
  have hle := t.seconds_le
  apply Int64.toInt_ofInt_of_le
  · omega
  · omega

namespace TokenClaims

/-- Claims that expire after their issue hold from the issue on and before the expiry. -/
theorem validate_make {issued expires : Instant} (h : issued.seconds < expires.seconds)
    (identity : Identity) (now : Instant) :
    (make identity issued expires).validate now =
      if now.seconds < issued.seconds then .error .notYetValid
      else if expires.seconds ≤ now.seconds then .error .expired
      else .ok () := by
  have hwindow : ¬ (make identity issued expires).expiresAt ≤
      (make identity issued expires).issuedAt := by
    rw [Int64.le_iff_toInt_le]
    simp only [make, Instant.toInt_ofInt_seconds]
    omega
  rw [validate, if_neg hwindow]
  simp only [make, Instant.toInt_ofInt_seconds]

/-! ## The authorities -/

/-- A name is read from a text exactly if it is a piece of it, trimmed, that is not empty. -/
theorem mem_authorityNames {x text : String} :
    x ∈ authorityNames text ↔
      ∃ piece ∈ splitOn ',' text.toList, trim piece ≠ [] ∧ x = String.ofList (trim piece) := by
  simp only [authorityNames, List.mem_map, List.mem_filter]
  constructor
  · rintro ⟨_, ⟨⟨piece, hpiece, rfl⟩, hne⟩, rfl⟩
    exact ⟨piece, hpiece, by simpa using hne, rfl⟩
  · rintro ⟨piece, hpiece, hne, rfl⟩
    exact ⟨trim piece, ⟨⟨piece, hpiece, rfl⟩, by simpa using hne⟩, rfl⟩

/-- Names that are joined by commas are cut into the pieces of each of them. -/
private theorem splitOn_intercalate {names : List String} (h : names ≠ []) :
    splitOn ',' (",".intercalate names).toList = names.flatMap fun n => splitOn ',' n.toList := by
  induction names with
  | nil => exact absurd rfl h
  | cons n rest ih =>
    cases rest with
    | nil => simp
    | cons m rest =>
      -- the comma that joins is a comma to cut at
      have htext : (",".intercalate (n :: m :: rest)).toList =
          n.toList ++ ',' :: (",".intercalate (m :: rest)).toList := by
        rw [String.intercalate_cons_cons]
        simp
      rw [htext, splitOn_append, ih (by simp)]
      rfl

/-- What joined names come back as: the pieces of each of them. -/
theorem mem_authorityNames_intercalate {x : String} {names : List String} :
    x ∈ authorityNames (",".intercalate names) ↔
      ∃ n ∈ names, ∃ piece ∈ splitOn ',' n.toList,
        trim piece ≠ [] ∧ x = String.ofList (trim piece) := by
  rw [mem_authorityNames]
  -- no names are joined to the empty text, whose one piece is dropped again
  by_cases hnames : names = []
  · subst hnames
    simp [splitOn, trim, trimStart, trimEnd]
  · rw [splitOn_intercalate hnames]
    constructor
    · rintro ⟨piece, hpiece, hx⟩
      obtain ⟨n, hn, hpiece⟩ := List.mem_flatMap.1 hpiece
      exact ⟨n, hn, piece, hpiece, hx⟩
    · rintro ⟨n, hn, piece, hpiece, hx⟩
      exact ⟨piece, List.mem_flatMap.2 ⟨n, hn, hpiece⟩, hx⟩

/-- No name that is read has a comma. -/
theorem comma_not_mem_of_mem_authorityNames {x text : String} (h : x ∈ authorityNames text) :
    ',' ∉ x.toList := by
  obtain ⟨piece, hpiece, -, rfl⟩ := mem_authorityNames.1 h
  rw [String.toList_ofList]
  intro hcomma
  exact not_mem_of_mem_splitOn hpiece (mem_of_mem_trim hcomma)

end TokenClaims

namespace Identity

/-- Who a token for an identity speaks for: the authorities are joined and cut apart again. -/
def claimed (i : Identity) : Identity :=
  Identity.make i.name (TokenClaims.authorityNames (",".intercalate i.authorities.names))

/-- Every authority is a text with no blank at its ends, and is not empty. -/
def Plain (i : Identity) : Prop := ∀ n ∈ i.authorities, n ≠ "" ∧ Tight n.toList

theorem identity_make (i : Identity) (issued expires : Instant) :
    (TokenClaims.make i issued expires).identity = i.claimed := rfl

/-- A plain authority without a comma comes back. -/
theorem mem_claimed_of_mem {i : Identity} (hplain : i.Plain) {n : String}
    (hn : n ∈ i.authorities) (hcomma : ',' ∉ n.toList) : n ∈ i.claimed.authorities := by
  obtain ⟨hne, htight⟩ := hplain n hn
  have htrim : trim n.toList = n.toList := trim_eq_self htight
  refine AuthoritySet.mem_ofList.2 (TokenClaims.mem_authorityNames_intercalate.2 ?_)
  refine ⟨n, hn, n.toList, ?_, ?_, ?_⟩
  · rw [splitOn_eq_singleton hcomma]
    exact List.mem_singleton.2 rfl
  · rw [htrim]
    simpa using hne
  · rw [htrim, String.ofList_toList]

/-- What comes back is plain and has no comma. -/
theorem plain_of_mem_claimed {i : Identity} {x : String} (hx : x ∈ i.claimed.authorities) :
    (x ≠ "" ∧ Tight x.toList) ∧ ',' ∉ x.toList := by
  have hread := AuthoritySet.mem_ofList.1 hx
  refine ⟨?_, TokenClaims.comma_not_mem_of_mem_authorityNames hread⟩
  obtain ⟨piece, -, hne, rfl⟩ := TokenClaims.mem_authorityNames.1 hread
  rw [String.toList_ofList]
  refine ⟨fun hempty => hne ?_, tight_trim piece⟩
  simpa using congrArg String.toList hempty

/-- An identity comes back as it was exactly if its authorities are plain and none has a comma. -/
theorem claimed_eq_self_iff {i : Identity} :
    i.claimed = i ↔ i.Plain ∧ ∀ n ∈ i.authorities, ',' ∉ n.toList := by
  constructor
  · intro heq
    have hback : ∀ n ∈ i.authorities, (n ≠ "" ∧ Tight n.toList) ∧ ',' ∉ n.toList := by
      intro n hn
      rw [← heq] at hn
      exact plain_of_mem_claimed hn
    exact ⟨fun n hn => (hback n hn).1, fun n hn => (hback n hn).2⟩
  · intro ⟨hplain, hcomma⟩
    -- sets are compared by their members, so that the order of joining plays no part
    have hauthorities : i.claimed.authorities = i.authorities := by
      apply AuthoritySet.ext_mem
      intro x
      constructor
      · intro hx
        obtain ⟨n, hn, piece, hpiece, -, rfl⟩ :=
          TokenClaims.mem_authorityNames_intercalate.1 (AuthoritySet.mem_ofList.1 hx)
        -- a name without a comma is its own only piece
        rw [splitOn_eq_singleton (hcomma n hn)] at hpiece
        obtain rfl := List.mem_singleton.1 hpiece
        rw [trim_eq_self (hplain n hn).2, String.ofList_toList]
        exact hn
      · intro hx
        exact mem_claimed_of_mem hplain hx (hcomma x hx)
    calc i.claimed = ⟨i.name, i.claimed.authorities⟩ := rfl
      _ = ⟨i.name, i.authorities⟩ := by rw [hauthorities]
      _ = i := rfl

/-- An identity with plain authorities comes back as it was exactly if none has a comma. -/
theorem claimed_eq_iff {i : Identity} (hplain : i.Plain) :
    i.claimed = i ↔ ∀ n ∈ i.authorities, ',' ∉ n.toList := by
  rw [claimed_eq_self_iff, and_iff_right hplain]

end Identity

end CommandBus

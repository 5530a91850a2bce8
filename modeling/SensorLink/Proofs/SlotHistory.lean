import Mathlib.Data.List.Induction
import SensorLink.Proofs.Hearing

/-! What has happened at a slot decides what is in it, whatever was asked, heard, collected and given up, in whatever
    order: a question waits since it was put, unless a line that fits was heard or it was given up (`Waits`), and an answer
    is there since its line was heard, unless it was collected or given up or another question was put (`Holds`). -/

namespace SensorLink.Slot

inductive History.Act where
  | ask (expected : String)
  | hear (line : String)
  | collect (generation : UInt32)
  | forget (generation : UInt32)

/-- An act with what came of it. -/
inductive History.Entry where
  | asked (expected : String) (result : Except Refusal UInt32)
  | heard (line : String) (answered : Bool)
  | collected (generation : UInt32) (answer : Option String)
  | forgotten (generation : UInt32)

/-- A slot with all that has happened at it, the latest last. -/
structure History where
  slot : Slot := {}
  entries : List History.Entry := []

namespace History

def perform (slot : Slot) : Act → Slot × Entry
  | .ask expected =>
    match slot.ask expected with
    | .ok (after, generation) => (after, .asked expected (.ok generation))
    | .error cause => (slot, .asked expected (.error cause))
  | .hear line => ((slot.hear line).1, .heard line (slot.hear line).2)
  | .collect generation => ((slot.collect generation).1, .collected generation (slot.collect generation).2)
  | .forget generation => (slot.forget generation, .forgotten generation)

def next (history : History) (act : Act) : History where
  slot := (perform history.slot act).1
  entries := history.entries ++ [(perform history.slot act).2]

def run (acts : List Act) : History := acts.foldl next {}

theorem run_concat (acts : List Act) (act : Act) : run (acts ++ [act]) = (run acts).next act := by simp [run]

namespace Entry

def act : Entry → Act
  | .asked expected _ => .ask expected
  | .heard line _ => .hear line
  | .collected generation _ => .collect generation
  | .forgotten generation => .forget generation

/-- The generation of a question that was put. -/
def granted? : Entry → Option UInt32
  | .asked _ (.ok generation) => some generation
  | _ => none

/-- A question that waits for a line that starts with `expected` still does after this. -/
def LeavesQuestion (generation : UInt32) (expected : String) : Entry → Prop
  | .heard line _ => ¬expected.toList <+: line.toList
  | .forgotten given => given ≠ generation
  | _ => True

/-- An answer is still there after this. -/
def LeavesAnswer (generation : UInt32) : Entry → Prop
  | .asked _ (.ok _) => False
  | .collected given (some _) => given ≠ generation
  | .forgotten given => given ≠ generation
  | _ => True

end Entry

theorem act_perform (slot : Slot) (act : Act) : (perform slot act).2.act = act := by
  cases act with
  | ask expected =>
    simp only [perform]
    split <;> rfl
  | _ => rfl

theorem map_act_run (acts : List Act) : (run acts).entries.map Entry.act = acts := by
  induction acts using List.reverseRecOn with
  | nil => rfl
  | append_singleton acts act ih =>
    rw [run_concat, next, List.map_append, ih, List.map_singleton, act_perform]

/-! ### Since when -/

/-- An entry has begun something, and every later one leaves it as it is. -/
def Since (begins : List Entry → Entry → Prop) (leaves : Entry → Prop) (entries : List Entry) : Prop :=
  ∃ before entry since, entries = before ++ entry :: since ∧ begins before entry ∧ ∀ later ∈ since, leaves later

section
variable {begins : List Entry → Entry → Prop} {leaves : Entry → Prop} {entries : List Entry} {entry : Entry}

theorem not_since_nil : ¬Since begins leaves [] := by
  rintro ⟨before, entry, since, heq, -⟩
  simp at heq

theorem since_concat :
    Since begins leaves (entries ++ [entry]) ↔ begins entries entry ∨ Since begins leaves entries ∧ leaves entry := by
  constructor
  · rintro ⟨before, first, since, heq, hbegins, hleaves⟩
    rcases List.eq_nil_or_concat since with rfl | ⟨since, last, rfl⟩
    · obtain ⟨rfl, hlast⟩ := List.append_inj' heq rfl
      cases hlast
      exact .inl hbegins
    · rw [List.concat_eq_append, ← List.cons_append, ← List.append_assoc] at heq
      obtain ⟨rfl, hlast⟩ := List.append_inj' heq rfl
      cases hlast
      rw [List.concat_eq_append, List.forall_mem_append, List.forall_mem_singleton] at hleaves
      exact .inr ⟨⟨before, first, since, rfl, hbegins, hleaves.1⟩, hleaves.2⟩
  · rintro (hbegins | ⟨⟨before, first, since, rfl, hbegins, hleaves⟩, hlast⟩)
    · exact ⟨entries, entry, [], rfl, hbegins, nofun⟩
    · refine ⟨before, first, since ++ [entry], by simp, hbegins, ?_⟩
      exact List.forall_mem_append.mpr ⟨hleaves, List.forall_mem_singleton.mpr hlast⟩

end

/-- The question was put, and waits. -/
def Waits (entries : List Entry) (generation : UInt32) (expected : String) : Prop :=
  Since (fun _ entry => entry = .asked expected (.ok generation)) (Entry.LeavesQuestion generation expected) entries

/-- The question has been answered by this line, the first one that fitted while it waited, and the answer is there. -/
def Holds (entries : List Entry) (generation : UInt32) (expected line : String) : Prop :=
  Since (fun before entry => entry = .heard line true ∧ Waits before generation expected ∧ expected.toList <+: line.toList)
    (Entry.LeavesAnswer generation) entries

/-! ### One act -/

section
variable {slot after : Slot} {entry : Entry} {entries : List Entry}

/-- What comes of an act at a slot. -/
inductive Comes (slot : Slot) : Entry → Slot → Prop
  | granted {expected : String} (free : ∀ g e, slot.question ≠ some ⟨g, e, none⟩) :
      Comes slot (.asked expected (.ok (slot.generation + 1)))
        { generation := slot.generation + 1, question := some ⟨slot.generation + 1, expected, none⟩, wakeUp := none }
  | refused {expected : String} {cause : Refusal} : Comes slot (.asked expected (.error cause)) slot
  | answered {line : String} {g : UInt32} {e answer : String} (waits : slot.question = some ⟨g, e, none⟩)
      (fits : answerOf? e line = some answer) :
      Comes slot (.heard line true) { slot with question := some ⟨g, e, some answer⟩, wakeUp := some g }
  | ignored {line : String} (misses : ∀ g e, slot.question = some ⟨g, e, none⟩ → answerOf? e line = none) :
      Comes slot (.heard line false) slot
  | collected {g : UInt32} {e answer : String} (there : slot.question = some ⟨g, e, some answer⟩) :
      Comes slot (.collected g (some answer)) { slot with question := none }
  | absent {g : UInt32} (other : ∀ e answer, slot.question ≠ some ⟨g, e, some answer⟩) : Comes slot (.collected g none) slot
  | forgotten {g : UInt32} {e : String} {answer : Option String} (there : slot.question = some ⟨g, e, answer⟩) :
      Comes slot (.forgotten g) { slot with question := none }
  | unknown {g : UInt32} (other : ∀ e answer, slot.question ≠ some ⟨g, e, answer⟩) : Comes slot (.forgotten g) slot

theorem ask_eq_busy_iff {expected : String} : slot.ask expected = .error .busy ↔
    expected.utf8ByteSize ≤ Limits.expected ∧ ∃ g e, slot.question = some ⟨g, e, none⟩ := by
  rw [← isWaiting_iff, ← Nat.not_lt]
  unfold ask
  split <;> simp [*]

theorem hear_eq_true_iff {line : String} : (slot.hear line).2 = true ↔
    ∃ g e, slot.question = some ⟨g, e, none⟩ ∧ e.toList <+: line.toList := by
  rcases hquestion : slot.question with _ | ⟨g, e, _ | answer⟩
  · simp [hear, hquestion]
  · rcases hanswer : answerOf? e line with _ | answer
    · simpa [hear, hquestion, hanswer] using answerOf?_eq_none_iff.mp hanswer
    · simpa [hear, hquestion, hanswer] using prefix_of_answerOf? hanswer
  · simp [hear, hquestion]

theorem comes_perform (slot : Slot) (act : Act) : Comes slot (perform slot act).2 (perform slot act).1 := by
  cases act with
  | ask expected =>
    simp only [perform]
    split
    · rename_i hask
      simp only [ask] at hask
      split at hask
      · cases hask
      · split at hask
        · cases hask
        · rename_i hfree
          cases hask
          exact .granted fun g e hquestion => hfree (isWaiting_iff.mpr ⟨g, e, hquestion⟩)
    · exact .refused
  | hear line =>
    simp only [perform]
    by_cases hfits : ∃ g e answer, slot.question = some ⟨g, e, none⟩ ∧ answerOf? e line = some answer
    · obtain ⟨g, e, answer, hquestion, hanswer⟩ := hfits
      simp only [hear, hquestion, hanswer]
      exact .answered hquestion hanswer
    · have hmisses (g : UInt32) (e : String) (hquestion : slot.question = some ⟨g, e, none⟩) : answerOf? e line = none :=
        Option.eq_none_iff_forall_ne_some.mpr fun answer hanswer => hfits ⟨g, e, answer, hquestion, hanswer⟩
      have hfalse : (slot.hear line).2 = false := by
        rw [← Bool.not_eq_true, hear_eq_true_iff]
        rintro ⟨g, e, hquestion, hprefix⟩
        exact answerOf?_eq_none_iff.mp (hmisses g e hquestion) hprefix
      have hself : slot.hear line = (slot, false) := Prod.ext (hear_false (Prod.ext rfl hfalse)) hfalse
      rw [hself]
      exact .ignored hmisses
  | collect g =>
    simp only [perform]
    by_cases hthere : ∃ e answer, slot.question = some ⟨g, e, some answer⟩
    · obtain ⟨e, answer, hquestion⟩ := hthere
      rw [collect_own hquestion]
      exact .collected hquestion
    · have hother (e answer : String) (hquestion : slot.question = some ⟨g, e, some answer⟩) : False :=
        hthere ⟨e, answer, hquestion⟩
      rw [collect_eq_self hother]
      exact .absent hother
  | forget g =>
    simp only [perform]
    by_cases hthere : ∃ e answer, slot.question = some ⟨g, e, answer⟩
    · obtain ⟨e, answer, hquestion⟩ := hthere
      rw [forget_own hquestion]
      exact .forgotten hquestion
    · have hother (e : String) (answer : Option String) (hquestion : slot.question = some ⟨g, e, answer⟩) : False :=
        hthere ⟨e, answer, hquestion⟩
      rw [forget_eq_self hother]
      exact .unknown hother

/-! ### What is in the slot -/

theorem waits_concat {g : UInt32} {e : String} : Waits (entries ++ [entry]) g e ↔
    entry = .asked e (.ok g) ∨ Waits entries g e ∧ entry.LeavesQuestion g e :=
  since_concat

theorem holds_concat {g : UInt32} {e line : String} : Holds (entries ++ [entry]) g e line ↔
    (entry = .heard line true ∧ Waits entries g e ∧ e.toList <+: line.toList) ∨
      Holds entries g e line ∧ entry.LeavesAnswer g :=
  since_concat

/-- The question that waits in the slot is the one that waits by what has happened. -/
theorem question_waits (hcomes : Comes slot entry after)
    (h : ∀ g e, slot.question = some ⟨g, e, none⟩ ↔ Waits entries g e) (g : UInt32) (e : String) :
    after.question = some ⟨g, e, none⟩ ↔ Waits (entries ++ [entry]) g e := by
  rw [waits_concat, ← h]
  cases hcomes with
  | granted free => simp [free, and_comm, eq_comm]
  | refused => simp [Entry.LeavesQuestion]
  | answered waits fits =>
    simp only [waits, Entry.LeavesQuestion]
    refine iff_of_false nofun ?_
    rintro (⟨⟨⟩⟩ | ⟨⟨⟩, hmisses⟩)
    exact hmisses (prefix_of_answerOf? fits)
  | ignored misses =>
    simp only [Entry.LeavesQuestion, reduceCtorEq, false_or]
    exact (and_iff_left_of_imp fun hquestion => answerOf?_eq_none_iff.mp (misses _ _ hquestion)).symm
  | collected there => simp [there]
  | absent other => simp [Entry.LeavesQuestion]
  | forgotten there =>
    simp only [there, Entry.LeavesQuestion]
    refine iff_of_false nofun ?_
    rintro (⟨⟨⟩⟩ | ⟨⟨⟩, hother⟩)
    exact hother rfl
  | unknown other =>
    simp only [Entry.LeavesQuestion, reduceCtorEq, false_or]
    refine (and_iff_left_of_imp ?_).symm
    rintro hquestion rfl
    exact other _ _ hquestion

/-- The answer in the slot is the one that is there by what has happened. -/
theorem question_holds (hcomes : Comes slot entry after)
    (hwaits : ∀ g e, slot.question = some ⟨g, e, none⟩ ↔ Waits entries g e)
    (h : ∀ g e answer, slot.question = some ⟨g, e, some answer⟩ ↔
      ∃ line, Holds entries g e line ∧ answerOf? e line = some answer) (g : UInt32) (e answer : String) :
    after.question = some ⟨g, e, some answer⟩ ↔
      ∃ line, Holds (entries ++ [entry]) g e line ∧ answerOf? e line = some answer := by
  -- Either the line was heard just now, or the answer has been there before.
  have hsplit : (∃ line, Holds (entries ++ [entry]) g e line ∧ answerOf? e line = some answer) ↔
      (∃ line, entry = .heard line true ∧ slot.question = some ⟨g, e, none⟩ ∧ answerOf? e line = some answer) ∨
        slot.question = some ⟨g, e, some answer⟩ ∧ entry.LeavesAnswer g := by
    rw [h]
    constructor
    · rintro ⟨line, hholds, hanswer⟩
      rcases holds_concat.mp hholds with ⟨hentry, hwaiting, -⟩ | ⟨hholds, hleaves⟩
      · exact .inl ⟨line, hentry, (hwaits g e).mpr hwaiting, hanswer⟩
      · exact .inr ⟨⟨line, hholds, hanswer⟩, hleaves⟩
    · rintro (⟨line, hentry, hwaiting, hanswer⟩ | ⟨⟨line, hholds, hanswer⟩, hleaves⟩)
      · exact ⟨line, holds_concat.mpr (.inl ⟨hentry, (hwaits g e).mp hwaiting, prefix_of_answerOf? hanswer⟩), hanswer⟩
      · exact ⟨line, holds_concat.mpr (.inr ⟨hholds, hleaves⟩), hanswer⟩
  rw [hsplit]
  cases hcomes with
  | granted free => simp [Entry.LeavesAnswer]
  | refused => simp [Entry.LeavesAnswer]
  | answered waits fits =>
    constructor
    · rintro ⟨⟩
      exact .inl ⟨_, rfl, waits, fits⟩
    · rintro (⟨line, ⟨⟩, hquestion, hanswer⟩ | ⟨hquestion, -⟩)
      · cases waits.symm.trans hquestion
        rw [← hanswer, fits]
      · cases waits.symm.trans hquestion
  | ignored misses => simp [Entry.LeavesAnswer]
  | collected there =>
    refine iff_of_false nofun ?_
    rintro (⟨line, ⟨⟩, -⟩ | ⟨hquestion, hother⟩)
    cases there.symm.trans hquestion
    exact hother rfl
  | absent other => simp [Entry.LeavesAnswer]
  | forgotten there =>
    refine iff_of_false nofun ?_
    rintro (⟨line, ⟨⟩, -⟩ | ⟨hquestion, hother⟩)
    cases there.symm.trans hquestion
    exact hother rfl
  | unknown other =>
    refine ⟨fun hquestion => .inr ⟨hquestion, ?_⟩, ?_⟩
    · rintro rfl
      exact other _ _ hquestion
    · rintro (⟨line, ⟨⟩, -⟩ | ⟨hquestion, -⟩)
      exact hquestion

/-! ### What is over -/

/-- No question of this generation will wait any more. -/
def Settled (slot : Slot) (g : UInt32) : Prop := g.toNat ≤ slot.generation.toNat ∧ ∀ e, slot.question ≠ some ⟨g, e, none⟩

/-- No question of this generation will be in the slot any more. -/
def Gone (slot : Slot) (g : UInt32) : Prop :=
  g.toNat ≤ slot.generation.toNat ∧ ∀ e answer, slot.question ≠ some ⟨g, e, answer⟩

theorem toNat_succ {g : UInt32} (h : g.toNat + 1 < UInt32.size) : (g + 1).toNat = g.toNat + 1 := by
  rw [UInt32.toNat_add]
  exact Nat.mod_eq_of_lt h

/-- A generation that is not passed over by a wrap is older than the next. -/
theorem ne_succ {g generation : UInt32} (hold : g.toNat ≤ generation.toNat)
    (hgrows : generation.toNat ≤ (generation + 1).toNat) : g ≠ generation + 1 := by
  rintro rfl
  have hsame : generation + 1 = generation := UInt32.toNat_inj.mp (Nat.le_antisymm hold hgrows)
  simp at hsame

theorem Settled.comes {g : UInt32} (hcomes : Comes slot entry after)
    (hgrows : slot.generation.toNat ≤ after.generation.toNat) (h : Settled slot g) : Settled after g := by
  obtain ⟨hold, hsettled⟩ := h
  cases hcomes with
  | granted free =>
    refine ⟨hold.trans hgrows, fun e heq => ?_⟩
    cases heq
    exact ne_succ hold hgrows rfl
  | refused | ignored misses | absent other | unknown other => exact ⟨hold, hsettled⟩
  | answered waits fits | collected there | forgotten there => exact ⟨hold, nofun⟩

theorem Gone.comes {g : UInt32} (hcomes : Comes slot entry after)
    (hgrows : slot.generation.toNat ≤ after.generation.toNat) (h : Gone slot g) : Gone after g := by
  obtain ⟨hold, hgone⟩ := h
  cases hcomes with
  | granted free =>
    refine ⟨hold.trans hgrows, fun e answer heq => ?_⟩
    cases heq
    exact ne_succ hold hgrows rfl
  | answered waits fits =>
    refine ⟨hold, fun e answer heq => ?_⟩
    cases heq
    exact hgone _ _ waits
  | refused | ignored misses | absent other | unknown other => exact ⟨hold, hgone⟩
  | collected there | forgotten there => exact ⟨hold, nofun⟩

end

/-! ### Histories -/

/-- A line has answered the question. -/
def Answered (entries : List Entry) (generation : UInt32) (expected : String) : Prop :=
  Since (fun before entry => ∃ line, entry = .heard line true ∧ Waits before generation expected) (fun _ => True) entries

/-- What has happened accounts for what is in the slot. -/
structure Sound (history : History) : Prop where
  granted : (history.entries.filterMap Entry.granted?).map UInt32.toNat = List.range' 1 history.slot.generation.toNat
  latest : ∀ g e answer, history.slot.question = some ⟨g, e, answer⟩ → 0 < g.toNat ∧ g = history.slot.generation
  waits : ∀ g e, history.slot.question = some ⟨g, e, none⟩ ↔ Waits history.entries g e
  holds : ∀ g e answer, history.slot.question = some ⟨g, e, some answer⟩ ↔
    ∃ line, Holds history.entries g e line ∧ answerOf? e line = some answer
  settled : ∀ g e, Answered history.entries g e → Settled history.slot g
  gone : ∀ g answer, .collected g (some answer) ∈ history.entries → Gone history.slot g

theorem sound_empty : Sound {} where
  granted := rfl
  latest := nofun
  waits _ _ := iff_of_false nofun not_since_nil
  holds _ _ _ := iff_of_false nofun fun ⟨_, h, _⟩ => not_since_nil h
  settled _ _ h := absurd h not_since_nil
  gone := nofun

/-- So few questions have been put that their generations have not wrapped. -/
def Few (history : History) : Prop := (history.entries.filterMap Entry.granted?).length < UInt32.size

theorem Sound.length_granted {history : History} (h : Sound history) :
    (history.entries.filterMap Entry.granted?).length = history.slot.generation.toNat := by
  rw [← List.length_map UInt32.toNat, h.granted, List.length_range']

theorem sound_next {history : History} (h : Sound history) (act : Act) (hfew : (history.next act).Few) :
    Sound (history.next act) := by
  have hcomes : Comes history.slot (perform history.slot act).2 (history.next act).slot := comes_perform history.slot act
  have hentries : (history.next act).entries = history.entries ++ [(perform history.slot act).2] := rfl
  generalize (perform history.slot act).2 = entry at hcomes hentries
  generalize history.next act = after at hcomes hentries hfew
  obtain ⟨after, entries⟩ := after
  subst hentries
  -- The next generation is one more, for there is room for it.
  have hsucc (hgranted : entry.granted?.isSome) :
      (history.slot.generation + 1).toNat = history.slot.generation.toNat + 1 := by
    obtain ⟨g, hg⟩ := Option.isSome_iff_exists.mp hgranted
    refine toNat_succ ?_
    rw [← h.length_granted]
    simpa [Few, List.filterMap_append, hg] using hfew
  have hgrows : history.slot.generation.toNat ≤ after.generation.toNat := by
    cases hcomes with
    | granted free => exact (hsucc rfl).symm ▸ Nat.le_succ _
    | _ => exact le_rfl
  refine ⟨?_, ?_, question_waits hcomes h.waits, question_holds hcomes h.waits h.holds, fun g e hanswered => ?_,
    fun g answer hmem => ?_⟩
  · rw [List.filterMap_append, List.map_append, h.granted]
    cases hcomes with
    | granted free =>
      rw [hsucc rfl, List.range'_1_concat, Nat.add_comm 1, ← hsucc rfl]
      rfl
    | _ => exact List.append_nil _
  · intro g e answer hquestion
    cases hcomes with
    | granted free =>
      cases hquestion
      exact ⟨hsucc rfl ▸ Nat.succ_pos _, rfl⟩
    | answered waits fits =>
      cases hquestion
      exact h.latest _ _ _ waits
    | refused | ignored misses | absent other | unknown other => exact h.latest _ _ _ hquestion
    | collected there | forgotten there => cases hquestion
  · rcases since_concat.mp hanswered with ⟨line, rfl, hwaiting⟩ | ⟨hanswered, -⟩
    · have hquestion := (h.waits g e).mpr hwaiting
      cases hcomes with
      | answered waits fits => exact ⟨(congrArg UInt32.toNat (h.latest _ _ _ hquestion).2).le, nofun⟩
    · exact (h.settled g e hanswered).comes hcomes hgrows
  · rcases List.mem_append.mp hmem with hmem | hmem
    · exact (h.gone g answer hmem).comes hcomes hgrows
    · obtain rfl := (List.mem_singleton.mp hmem)
      cases hcomes with
      | collected there => exact ⟨(congrArg UInt32.toNat (h.latest _ _ _ there).2).le, nofun⟩

theorem sound_run (acts : List Act) (hfew : (run acts).Few) : Sound (run acts) := by
  induction acts using List.reverseRecOn with
  | nil => exact sound_empty
  | append_singleton acts act ih =>
    rw [run_concat] at hfew ⊢
    refine sound_next (ih ?_) act hfew
    rw [Few, next, List.filterMap_append, List.length_append] at hfew
    exact Nat.lt_of_le_of_lt (Nat.le_add_right _ _) hfew

/-- What is in the slot is the latest question. -/
theorem Sound.getLast?_granted {history : History} (h : Sound history) {g : UInt32} {e : String} {answer : Option String}
    (hquestion : history.slot.question = some ⟨g, e, answer⟩) :
    (history.entries.filterMap Entry.granted?).getLast? = some g := by
  obtain ⟨hpos, rfl⟩ := h.latest g e answer hquestion
  obtain ⟨count, hcount⟩ := Nat.exists_eq_succ_of_ne_zero hpos.ne'
  have hlast : ((history.entries.filterMap Entry.granted?).map UInt32.toNat).getLast? =
      some history.slot.generation.toNat := by
    rw [h.granted, hcount, List.range'_1_concat, List.getLast?_concat, Nat.add_comm]
  rw [List.getLast?_map] at hlast
  obtain ⟨last, hlast, hsame⟩ := Option.map_eq_some_iff.mp hlast
  rw [hlast, UInt32.toNat_inj.mp hsame]

theorem heard_of_holds {acts : List Act} {g : UInt32} {e line : String} (h : Holds (run acts).entries g e line) :
    .hear line ∈ acts := by
  obtain ⟨before, entry, since, heq, ⟨rfl, -⟩, -⟩ := h
  rw [← map_act_run acts, heq]
  simp [Entry.act]

/-- Whatever has been done at a slot, as long as the numbers of its questions do not repeat: questions that were put have
    the numbers 1, 2, 3, …; one is refused as busy exactly while another waits, and changes nothing; each question is
    answered once, by the first line that starts with what it expects and comes while it waits; the rest of that line is
    collected once, under the number of the latest question, unless it was given up or another was put in the meantime;
    and nothing is done under another number. -/
theorem entries_decide (acts : List Act) (hlines : ∀ line, .hear line ∈ acts → line.utf8ByteSize ≤ Limits.line)
    (hfew : (run acts).Few) :
    let slot := (run acts).slot
    let entries := (run acts).entries
    (∃ count, (entries.filterMap Entry.granted?).map UInt32.toNat = List.range' 1 count) ∧
      (∀ expected, slot.ask expected = .error .busy ↔
        expected.utf8ByteSize ≤ Limits.expected ∧ ∃ g e, Waits entries g e) ∧
      (∀ expected cause, slot.ask expected = .error cause → (run (acts ++ [.ask expected])).slot = slot) ∧
      (∀ line, (slot.hear line).2 = true ↔ ∃ g e, Waits entries g e ∧ e.toList <+: line.toList) ∧
      (∀ g e e', Answered entries g e → ¬Waits entries g e') ∧
      (∀ g answer, (slot.collect g).2 = some answer ↔ ∃ e line, Holds entries g e line ∧ line = e ++ answer) ∧
      (∀ g answer, .collected g (some answer) ∈ entries → slot.collect g = (slot, none)) ∧
      ∀ g, (entries.filterMap Entry.granted?).getLast? ≠ some g →
        slot.collect g = (slot, none) ∧ slot.forget g = slot := by
  intro slot entries
  have hsound : Sound (run acts) := sound_run acts hfew
  refine ⟨⟨_, hsound.granted⟩, fun expected => ?_, fun expected cause hask => ?_, fun line => ?_,
    fun g e e' hanswered hwaits => ?_, fun g answer => ?_, fun g answer hmem => ?_, fun g hlatest => ?_⟩
  · rw [ask_eq_busy_iff]
    simp only [hsound.waits, slot, entries]
  · simp only [run_concat, next, perform, slot] at hask ⊢
    rw [hask]
  · rw [hear_eq_true_iff]
    simp only [hsound.waits, slot, entries]
  · exact (hsound.settled g e hanswered).2 e' ((hsound.waits g e').mpr hwaits)
  · rw [collect_eq_some_iff]
    simp only [hsound.holds, slot, entries]
    refine exists_congr fun e => exists_congr fun line => and_congr_right fun hholds => ?_
    exact answerOf?_eq_some_iff (hlines line (heard_of_holds hholds))
  · exact collect_eq_self fun e answer => (hsound.gone g _ hmem).2 e answer
  · have hother (e : String) (answer : Option String) (hquestion : slot.question = some ⟨g, e, answer⟩) : False :=
      hlatest (hsound.getLast?_granted hquestion)
    exact ⟨collect_eq_self fun e answer => hother e answer, forget_eq_self hother⟩

/-- An answer nobody collected gives way to the next question, whose line is the first that fits it; to collect or to give
    up under the old number is in vain. -/
theorem entries_decide_of_late_calls :
    let acts : List Act := [.ask "OK", .hear "OK 5", .ask "+C", .hear "OK 6", .collect 1, .forget 1, .hear "+C 7", .hear "+C 8"]
    ((∀ line, .hear line ∈ acts → line.utf8ByteSize ≤ Limits.line) ∧ (run acts).Few) ∧
      (∃ e line, Holds (run acts).entries 2 e line ∧ line = e ++ " 7") ∧
      (¬∃ g e, Waits (run acts).entries g e ∧ e.toList <+: "+C 9".toList) ∧
      (run acts).slot.collect 1 = ((run acts).slot, none) := by
  intro acts
  have hlines : ∀ line, .hear line ∈ acts → line.utf8ByteSize ≤ Limits.line := by
    intro line hmem
    simp only [acts, List.mem_cons, Act.hear.injEq, reduceCtorEq, List.not_mem_nil, false_or, or_false] at hmem
    rcases hmem with rfl | rfl | rfl | rfl <;> decide +kernel
  have hfew : (run acts).Few := by
    show ((run acts).entries.filterMap Entry.granted?).length < UInt32.size
    decide +kernel
  obtain ⟨-, -, -, hears, -, collects, -, others⟩ := entries_decide acts hlines hfew
  exact ⟨⟨hlines, hfew⟩, (collects 2 " 7").mp (by decide +kernel), mt (hears "+C 9").mpr (by decide +kernel),
    (others 1 (by decide +kernel)).1⟩

end History
end SensorLink.Slot

import SmartStreaming.Base.Io.BufferView
import SmartStreaming.Base.Io.BufferWrites

/-!
# Base/Io/BufferEcho — what a writing call appended, read back

`Echoes R n f g a`: a success of `f` has appended either all of its `n` bytes, and then `g` restores
`a` from them whatever follows, or, for lack of room, fewer, and then `g` refuses what was appended
with anything the remaining room allows behind it.  The second case comes from `write_bytes`, whose
refusal nobody looks at.  `Echoes.bind` puts pairs of calls together in the order of the calls.
-/

namespace SmartStreaming

open Machinery Comp

namespace Buffer

variable {α β γ δ : Type}

/-- From the bytes `c` on, `g` returns `a` and leaves `rest`. -/
def Restores (g : Stream α) (a : α) (c rest : Bytes) : Prop :=
  Via Shows (fun _ => False) (fun _ _ => False) (fun a' c' => a' = a ∧ c' = rest) g c

/-- From the bytes `c` on, `g` fails. -/
def Refuses (g : Stream α) (c : Bytes) : Prop :=
  Via Shows (fun _ => False) (fun _ _ => True) (fun _ _ => False) g c

/-- Everything that may follow. -/
abbrev Anything : Bytes → Prop := fun _ => True

/-- Nothing follows. -/
abbrev Nothing : Bytes → Prop := fun rest => rest = []

/-- **What `f` appends, `g` restores as `a`**, if all `n` bytes of it were appended, else `g`
refuses it. -/
def Echoes (R : Bytes → Prop) (n : ℤ) (f : Stream γ) (g : Stream α) (a : α) : Prop :=
  ∀ b : Buffer, b.Valid → Holds (fun _ => True) (fun _ _ => True)
    (fun _ b' => ∃ e, Appended b e b' ∧ 0 ≤ n
      ∧ ((e.length = n ∧ ∀ rest, R rest → Restores g a (e ++ rest) rest)
        ∨ (b.writeLeft < n ∧ ∀ x : Bytes, x.length ≤ b'.writeLeft → Refuses g (e ++ x)))) f b

section Restores

variable {g : Stream α} {h : α → Stream β} {a : α} {b : β} {c c₁ c₂ : Bytes}

theorem restores_pure (a : α) (c : Bytes) : Restores (pure a) a c c := Via.pure ⟨rfl, rfl⟩

/-- A restored value is what the rest goes on with. -/
theorem Restores.bind_via {F : Fault → Prop} {E : ℤ → Bytes → Prop} {Q : β → Bytes → Prop}
    (hg : Restores g a c c₁) (hh : Via Shows F E Q (h a) c₁) : Via Shows F E Q (g >>= h) c := by
  refine Via.bind (hg.mono (fun _ => False.elim) (fun _ _ => False.elim) ?_)
  rintro _ _ ⟨rfl, rfl⟩
  exact hh

theorem Restores.bind (hg : Restores g a c c₁) (hh : Restores (h a) b c₁ c₂) :
    Restores (g >>= h) b c c₂ :=
  hg.bind_via hh

theorem Restores.bind_refuses (hg : Restores g a c c₁) (hh : Refuses (h a) c₁) :
    Refuses (g >>= h) c :=
  hg.bind_via hh

theorem Refuses.bind (hg : Refuses g c) (h : α → Stream β) : Refuses (g >>= h) c :=
  Via.bind (hg.imp fun _ _ => False.elim)

/-- A requirement that is met. -/
theorem restores_requireRead {n : ℤ} (code : ℤ) (h₀ : 0 ≤ n) (h₁ : n ≤ c.length) :
    Restores (requireRead n code) ⟨⟩ c c :=
  Via.get_bind (fun _ hb => if_pos (hb.readRequire_iff.2 ⟨h₀, h₁⟩)) (restores_pure _ _)

/-- A requirement that is not met. -/
theorem refuses_requireRead {n : ℤ} (code : ℤ) (h : c.length < n) :
    Refuses (requireRead n code) c := by
  have hno : ∀ b : Buffer, Shows b c → ¬ b.readRequire n = true := fun b hb hreq => by
    have hle := (hb.readRequire_iff.1 hreq).2
    omega
  exact Via.get_bind (fun b hb => if_neg (hno b hb)) (Via.fail trivial)

/-- A requirement before a call that refuses. -/
theorem Refuses.requireRead {g : Stream α} (hg : Refuses g c) (n code : ℤ) :
    Refuses (Buffer.requireRead n code >>= fun _ => g) c :=
  Via.bind (via_requireRead (fun _ _ => hg) trivial)

theorem restores_readInt {w n : ℕ} {v : BitVec w} (hv : v.toNat < 256 ^ n) (rest : Bytes) :
    Restores (readInt w n) v (beBytes n v.toNat ++ rest) rest := by
  have hlen := length_beBytes n v.toNat
  refine via_readInt (by rw [List.length_append, hlen]; omega) ⟨?_, ?_⟩
  · rw [List.take_left' hlen, beNat_beBytes, Nat.mod_eq_of_lt hv, BitVec.ofNat_toNat,
      BitVec.setWidth_eq]
  · rw [List.drop_left' hlen]

theorem restores_readString (s rest : Bytes) :
    Restores (readString s.length) s (s ++ rest) rest := by
  refine via_readString (by omega) (by rw [List.length_append]; omega) ⟨?_, ?_⟩
  · rw [Int.toNat_natCast, List.take_left]
  · rw [Int.toNat_natCast, List.drop_left]

/-- A restored value, on a buffer that shows the bytes. -/
theorem Restores.run {b : Buffer} (hg : Restores g a c c₁) (hb : Shows b c) :
    ∃ b', g b = .ok (.ok a, b') ∧ Shows b' c₁ := by
  rcases hg with ⟨_, -, hF⟩ | ⟨_, _, -, hE⟩ | ⟨a', c', hends, rfl, rfl⟩
  · exact hF.elim
  · exact hE.elim
  · exact hends b hb

/-- A refusal returns nothing. -/
theorem Refuses.not_run {b b' : Buffer} {a : α} (hg : Refuses g c) (hb : Shows b c) :
    g b ≠ .ok (.ok a, b') := by
  intro hrun
  obtain ⟨_, -, hno⟩ := (Via.holds hg hb).elim_ok hrun
  exact hno

end Restores

section ContinuesAt

/-- From `b` on, `f` ends as `g` does from a buffer that has only `rest` left. -/
def ContinuesAt (f : Stream α) (b : Buffer) (g : Stream α) (rest : Bytes) : Prop :=
  ∃ b', Shows b' rest ∧ f b = g b'

theorem ContinuesAt.trans {f g h : Stream α} {b : Buffer} {c rest : Bytes}
    (hfg : ContinuesAt f b g c) (hgh : ∀ b', Shows b' c → ContinuesAt g b' h rest) :
    ContinuesAt f b h rest := by
  obtain ⟨b', hb', hrun⟩ := hfg
  obtain ⟨b'', hb'', hrun'⟩ := hgh b' hb'
  exact ⟨b'', hb'', hrun.trans hrun'⟩

theorem ContinuesAt.bind {f g : Stream α} {b : Buffer} {rest : Bytes}
    (h : ContinuesAt f b g rest) (k : α → Stream β) : ContinuesAt (f >>= k) b (g >>= k) rest := by
  obtain ⟨b', hb', hrun⟩ := h
  refine ⟨b', hb', ?_⟩
  change Comp.bind f k b = Comp.bind g k b'
  rw [Comp.bind, Comp.bind, hrun]

/-- A call that restores its result, before the rest of the program. -/
theorem ContinuesAt.of_restores {f : Stream β} {g : β → Stream α} {b : Buffer} {a : β}
    {c rest : Bytes} (hf : Restores f a c rest) (hb : Shows b c) :
    ContinuesAt (f >>= g) b (g a) rest := by
  obtain ⟨b', hrun, hb'⟩ := hf.run hb
  exact ⟨b', hb', run_bind_ok hrun⟩

end ContinuesAt

section Echoes

variable {R : Bytes → Prop} {m n : ℤ} {f : Stream γ} {g : Stream α} {a : α}

/-- **Pairs of calls follow each other.** -/
theorem Echoes.bind {f₂ : γ → Stream δ} {g₂ : α → Stream β} {b : β}
    (h₁ : Echoes Anything m f g a) (h₂ : ∀ c, Echoes R n (f₂ c) (g₂ a) b) :
    Echoes R (m + n) (f >>= f₂) (g >>= g₂) b := by
  intro buf hbuf
  rw [holds_bind]
  refine (h₁ buf hbuf).imp (fun _ _ => id) ?_
  rintro c buf₁ ⟨e₁, happ₁, hm, hecho₁⟩
  refine (h₂ c buf₁ happ₁.valid).imp (fun _ _ => id) ?_
  rintro d buf₂ ⟨e₂, happ₂, hn, hecho₂⟩
  have hroom₁ := happ₁.writeLeft_eq hbuf
  have hroom₂ := happ₂.writeLeft_eq happ₁.valid
  refine ⟨e₁ ++ e₂, happ₁.trans happ₂, by omega, ?_⟩
  rcases hecho₁ with ⟨hlen₁, hall₁⟩ | ⟨hcut₁, hall₁⟩
  · rcases hecho₂ with ⟨hlen₂, hall₂⟩ | ⟨hcut₂, hall₂⟩
    · refine Or.inl ⟨by rw [List.length_append]; omega, fun rest hrest => ?_⟩
      rw [List.append_assoc]
      exact (hall₁ _ trivial).bind (hall₂ rest hrest)
    · refine Or.inr ⟨by omega, fun x hx => ?_⟩
      rw [List.append_assoc]
      exact (hall₁ _ trivial).bind_refuses (hall₂ x hx)
  · refine Or.inr ⟨by omega, fun x hx => ?_⟩
    rw [List.append_assoc]
    exact (hall₁ _ (by rw [List.length_append]; omega)).bind g₂

/-- What may follow can be restricted. -/
theorem Echoes.last (h : Echoes Anything n f g a) : Echoes R n f g a := by
  intro b hb
  refine (h b hb).imp (fun _ _ => id) ?_
  rintro c b' ⟨e, happ, hn, hecho⟩
  refine ⟨e, happ, hn, hecho.imp_left ?_⟩
  rintro ⟨hlen, hall⟩
  exact ⟨hlen, fun rest _ => hall rest trivial⟩

/-- Neither call does anything to the bytes. -/
theorem echoes_pure (c : γ) (a : α) : Echoes R 0 (pure c) (pure a) a := by
  intro b hb
  refine ⟨[], Appended.refl hb, le_refl _, Or.inl ⟨rfl, fun rest _ => restores_pure a rest⟩⟩

/-- The reader goes on without reading. -/
theorem Echoes.andThen {h : α → Stream β} {b : β} (hecho : Echoes R n f g a)
    (hh : ∀ rest, Restores (h a) b rest rest) : Echoes R n f (g >>= h) b := by
  intro buf hbuf
  refine (hecho buf hbuf).imp (fun _ _ => id) ?_
  rintro c buf' ⟨e, happ, hn, hall⟩
  refine ⟨e, happ, hn, hall.imp ?_ ?_⟩
  · rintro ⟨hlen, hall⟩
    exact ⟨hlen, fun rest hrest => (hall rest hrest).bind (hh rest)⟩
  · rintro ⟨hcut, hall⟩
    exact ⟨hcut, fun x hx => (hall x hx).bind h⟩

theorem Echoes.map (k : α → β) (hecho : Echoes R n f g a) : Echoes R n f (k <$> g) (k a) := by
  rw [map_eq_pure_bind]
  exact hecho.andThen fun rest => restores_pure _ rest

/-- The writer drops a value. -/
theorem Echoes.writerReturns (h : Echoes R n f g a) (d : γ → δ) :
    Echoes R n (f >>= fun c => pure (d c)) g a := by
  intro b hb
  rw [holds_bind]
  exact (h b hb).imp (fun _ _ => id) fun _ _ => id

/-- A requirement of the writer. -/
theorem Echoes.writerRequires (h : Echoes R n f g a) (k code : ℤ) :
    Echoes R n (requireRead k code >>= fun _ => f) g a := by
  intro b hb
  rw [requireRead, bind_assoc, holds_bind, holds_get, holds_bind, holds_ensure]
  exact ⟨fun _ => h b hb, fun _ => trivial⟩

/-- A requirement of the reader that does not ask for more than was appended. -/
theorem Echoes.readerRequires (h : Echoes R n f g a) {k : ℤ} (hk : 0 ≤ k) (hkn : k ≤ n)
    (code : ℤ) : Echoes R n f (requireRead k code >>= fun _ => g) a := by
  intro b hb
  refine (h b hb).imp (fun _ _ => id) ?_
  rintro c b' ⟨e, happ, hn, hecho⟩
  refine ⟨e, happ, hn, hecho.imp ?_ ?_⟩
  · rintro ⟨hlen, hall⟩
    refine ⟨hlen, fun rest hrest => (restores_requireRead code hk ?_).bind (hall rest hrest)⟩
    rw [List.length_append]
    omega
  · rintro ⟨hcut, hall⟩
    exact ⟨hcut, fun x hx => (hall x hx).requireRead k code⟩

/-- **An integer**, which is never cut. -/
theorem echoes_int {w k : ℕ} {v : BitVec w} (hv : v.toNat < 256 ^ k) :
    Echoes R k (writeInt k v.toNat) (readInt w k) v := by
  intro b hb
  by_cases h : k ≤ b.writeLeft
  · obtain ⟨b', hrun, happ⟩ := writeInt_eq hb v.toNat h
    refine holds_of_run hrun ⟨_, happ, by omega, Or.inl ⟨?_, fun rest _ => ?_⟩⟩
    · rw [length_beBytes]
    · exact restores_readInt hv rest
  · rw [Holds, writeInt_full b (by omega)]
    trivial

/-- **The bytes of a string**, which are written whole or, for lack of room, not at all. -/
theorem echoes_writeBytes {s : Bytes} (hs : s ≠ []) (code : ℤ) :
    Echoes R s.length (writeBytes s s.length)
      (requireRead s.length code >>= fun _ => readString s.length) s := by
  intro b hb
  have hpos := List.length_pos_of_ne_nil hs
  by_cases h : s.length ≤ b.writeLeft
  · obtain ⟨b', hrun, happ⟩ := writeBytes_eq hb (by omega) (le_refl _) h
    rw [Int.toNat_natCast, List.take_length] at happ
    refine holds_of_run hrun ⟨s, happ, by omega, Or.inl ⟨rfl, fun rest _ => ?_⟩⟩
    refine (restores_requireRead code (by omega) ?_).bind (restores_readString s rest)
    rw [List.length_append]
    omega
  · have hrun : writeBytes s s.length b = .ok (.ok errorBufferRead, b) :=
      writeBytes_refused b s fun _ => by omega
    refine holds_of_run hrun ⟨[], Appended.refl hb, by omega, Or.inr ⟨by omega, fun x hx => ?_⟩⟩
    exact (refuses_requireRead code (by rw [List.nil_append]; omega)).bind _

/-- **`f` appends something** whenever it returns. -/
def Grows (f : Stream γ) : Prop :=
  ∀ b : Buffer, b.Valid → Holds (fun _ => True) (fun _ _ => True)
    (fun _ b' => ∃ e, Appended b e b' ∧ e ≠ []) f b

theorem Grows.bind {k : γ → Stream δ} (hf : Grows f) (hk : ∀ c, Writes n (k c)) :
    Grows (f >>= k) := by
  intro b hb
  rw [holds_bind]
  refine (hf b hb).imp (fun _ _ => id) ?_
  rintro c b₁ ⟨e₁, happ₁, hne⟩
  refine (hk c b₁ happ₁.valid).imp (fun _ _ => id) ?_
  rintro d b₂ ⟨e₂, happ₂, -⟩
  exact ⟨e₁ ++ e₂, happ₁.trans happ₂, fun h => hne (List.append_eq_nil_iff.1 h).1⟩

/-- The reader may look at whether there is anything to read. -/
theorem Echoes.of_nonempty {g' : Stream α} (h : Echoes R n f g a) (hf : Grows f)
    (hrestores : ∀ {c rest : Bytes}, c ≠ [] → Restores g a c rest → Restores g' a c rest)
    (hrefuses : ∀ {c : Bytes}, c ≠ [] → Refuses g c → Refuses g' c) : Echoes R n f g' a := by
  intro b hb
  refine ((h b hb).and (hf b hb)).imp (fun _ _ => id) ?_
  rintro c b' ⟨⟨e, happ, hn, hecho⟩, e', happ', hne⟩
  obtain rfl : e' = e := List.append_cancel_left (happ'.content_eq.symm.trans happ.content_eq)
  have hmore : ∀ x : Bytes, e' ++ x ≠ [] := fun x h => hne (List.append_eq_nil_iff.1 h).1
  refine ⟨e', happ, hn, hecho.imp ?_ ?_⟩
  · rintro ⟨hlen, hall⟩
    exact ⟨hlen, fun rest hrest => hrestores (hmore rest) (hall rest hrest)⟩
  · rintro ⟨hcut, hall⟩
    exact ⟨hcut, fun x hx => hrefuses (hmore x) (hall x hx)⟩

end Echoes

/-! ## Whole buffers -/

/-- Any bytes can be shown. -/
theorem exists_shows (c : Bytes) : ∃ b, Shows b c := by
  have hnew : (Buffer.new (List.replicate (c.length + 1) 0) (c.length + 1)).Valid :=
    valid_new (by omega) (by rw [List.length_replicate, Nat.cast_succ])
  have hroom := readLeft_add_writeLeft hnew
  have hempty : (Buffer.new (List.replicate (c.length + 1) 0) (c.length + 1)).readLeft = 0 := by
    rw [← length_content hnew, content_new, List.length_nil, Nat.cast_zero]
  have hsize : (Buffer.new (List.replicate (c.length + 1) 0) ((c.length : ℤ) + 1)).size
      = c.length + 1 := rfl
  have hfits : (c.length : ℤ)
      ≤ (Buffer.new (List.replicate (c.length + 1) 0) (c.length + 1)).writeLeft := by
    omega
  obtain ⟨b, -, happ⟩ := putBytes_eq hnew hfits
  exact ⟨b, happ.valid, by rw [happ.content_eq, content_new, List.nil_append]⟩

/-- **What a success has appended is restored exactly if all of it was appended**: if there was room
for it. -/
theorem Echoes.restored_iff {n : ℤ} {f : Stream γ} {g : Stream α} {a : α}
    (h : Echoes Nothing n f g a) {b b' : Buffer} {c : γ} (hb : b.Valid)
    (hf : f b = .ok (.ok c, b')) {e : Bytes} (he : b'.content = b.content ++ e) :
    (∀ d, Shows d e → ∃ d', g d = .ok (.ok a, d') ∧ d'.readEmpty = true) ↔ n ≤ b.writeLeft := by
  obtain ⟨e', happ, hn, hecho⟩ := (h b hb).elim_ok hf
  obtain rfl : e = e' := List.append_cancel_left (he.symm.trans happ.content_eq)
  have hroom := happ.writeLeft_eq hb
  have hleft := writeLeft_nonneg happ.valid
  rcases hecho with ⟨hlen, hall⟩ | ⟨hcut, hall⟩
  · refine ⟨fun _ => by omega, fun _ d hd => ?_⟩
    have hrest := hall [] rfl
    rw [List.append_nil] at hrest
    obtain ⟨d', hrun, hd'⟩ := hrest.run hd
    exact ⟨d', hrun, hd'.readEmpty_iff.2 rfl⟩
  · refine ⟨fun hback => ?_, fun hfit => absurd hfit (by omega)⟩
    obtain ⟨d, hd⟩ := exists_shows e
    obtain ⟨d', hrun, -⟩ := hback d hd
    have hno := hall [] (by rw [List.length_nil]; omega)
    rw [List.append_nil] at hno
    exact absurd hrun (hno.not_run hd)

end Buffer

end SmartStreaming

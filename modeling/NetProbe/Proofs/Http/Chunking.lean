import NetProbe.Proofs.Http.Truncation
set_option autoImplicit false

/-! # Chunks put together again

A body that was sent in chunks is what it was before: every list of chunks can be sent, and in
whatever notation of the sizes it is, the bytes up to the limit are read and whether there are more
of them. Unless the limit is passed, the reader stops at the byte behind the trailers
(`readChunks_encoded`). -/

namespace NetProbe.Http

namespace ChunkedBody

theorem data_eq_flatten {c : ChunkedBody} {parts : List Bytes}
    (h : c.chunks.map Chunk.data = parts) : c.data = parts.flatten := by
  rw [data, List.flatMap_def, h]

/-- A body that fits is read to the end of its trailers. -/
theorem readChunks_of_le (c : ChunkedBody) {limit : UInt64} (h : c.data.length ≤ limit.toNat)
    (ending : StreamEnd) (rest : Bytes) :
    readChunks ending limit.toNat [] (c.bytes ++ rest) = .ok (⟨c.data, false⟩, rest) :=
  (@reads_chunks c c.chunks limit.toNat [] h limit.toNat_lt).whole ending rest

end ChunkedBody

/-- Every list of chunks can be sent, and whatever is sent for it is read as the bytes of the chunks
    up to the limit. Sizes are announced in sixty-four bits. -/
theorem readChunks_encoded {parts : List Bytes} (hparts : ∀ d ∈ parts, d ≠ [] ∧ d.length < 2 ^ 64)
    (limit : UInt64) :
    (∃ c : ChunkedBody, c.chunks.map Chunk.data = parts) ∧
    ∀ c : ChunkedBody, c.chunks.map Chunk.data = parts → ∀ ending rest,
      ∃ left, readChunks ending limit.toNat [] (c.bytes ++ rest) = .ok ({
          body := parts.flatten.take limit.toNat
          truncated := limit.toNat < parts.flatten.length }, left) ∧
        (parts.flatten.length ≤ limit.toNat → left = rest) := by
  refine ⟨exists_chunkedBody hparts, fun c hc ending rest => ?_⟩
  have hdata := c.data_eq_flatten hc
  have hsize : ∀ d ∈ c.chunks, d.data.length < 2 ^ 64 := fun d hd =>
    (hparts d.data (hc ▸ List.mem_map_of_mem hd)).2
  obtain ⟨⟨snapshot, left⟩, hread, hsnapshot⟩ :=
    map_eq_ok_iff.1 (readChunks_bytes c hsize limit.toNat ending rest)
  obtain rfl : snapshot = .of limit.toNat parts.flatten := hdata ▸ hsnapshot
  refine ⟨left, hread, fun hle => ?_⟩
  have hwhole := c.readChunks_of_le (hdata ▸ hle) ending rest
  rw [hread] at hwhole
  exact (Prod.mk.inj (Except.ok.inj hwhole)).2

/-- A chunk whose bytes look like another one, with zeros and an extension in its line. -/
def ChunkedBody.nested : ChunkedBody where
  chunks := [{
    line := .ofText " 00A ;note=\"é\"" (by decide)
    data := [53, 13, 10, 104, 101, 108, 108, 111, 13, 10]
    nonempty := by decide
    announced := ⟨[' '], ['0', '0', 'A'], [' '], ";note=\"é\"".toList, rfl, by simp,
      .more (.more (.digit (d := 0) rfl) (d := 0) rfl) (d := 10) rfl, .inr rfl⟩ }]
  last := .ofText "00" (by decide)
  announced := ⟨[], ['0', '0'], [], [], rfl, nofun,
    .more (.digit (d := 0) rfl) (d := 0) rfl, .inl rfl⟩
  trailers := [.ofText "Expires: 0" (by decide)]
  nonblank := by
    rw [List.forall_mem_singleton]
    decide

/-- With room for all of its bytes, and for three. -/
theorem readChunks_encoded_nested :
    let parts : List Bytes := [[53, 13, 10, 104, 101, 108, 108, 111, 13, 10]]
    let bytes := ChunkedBody.nested.bytes ++ [72]
    (∀ d ∈ parts, d ≠ [] ∧ d.length < 2 ^ 64) ∧ ChunkedBody.nested.chunks.map Chunk.data = parts ∧
    readChunks .closed (10 : UInt64).toNat [] bytes =
      .ok (⟨[53, 13, 10, 104, 101, 108, 108, 111, 13, 10], false⟩, [72]) ∧
    ∃ left, readChunks .closed (3 : UInt64).toNat [] bytes = .ok (⟨[53, 13, 10], true⟩, left) := by
  intro parts bytes
  have hparts : ∀ d ∈ parts, d ≠ [] ∧ d.length < 2 ^ 64 := by decide
  have hchunks : ChunkedBody.nested.chunks.map Chunk.data = parts := rfl
  obtain ⟨left, hread, hleft⟩ := (readChunks_encoded hparts 10).2 _ hchunks .closed [72]
  obtain ⟨left', hread', -⟩ := (readChunks_encoded hparts 3).2 _ hchunks .closed [72]
  obtain rfl := hleft (by decide)
  exact ⟨hparts, hchunks, hread, left', hread'⟩

end NetProbe.Http

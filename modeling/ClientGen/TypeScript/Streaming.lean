import ClientGen.TypeScript.Block

/-! The decoders of streamed responses in TypeScript. -/
namespace ClientGen.TypeScript
namespace Streaming

def lineReader : Lines :=
  block ("async function* lines(response: Response, signal?: AbortSignal): "
      ++ "AsyncGenerator<string>") <|
    ["if (!response.body) return;",
      "const reader = response.body.getReader();",
      "const decoder = new TextDecoder();",
      "const abort = () => \x7b",
      "  void reader.cancel().catch(() => undefined);",
      "\x7d;",
      "signal?.addEventListener(\"abort\", abort, \x7b once: true \x7d);",
      "let buffer = \"\";"]
      ++ blocks "try"
        (block "while (!signal?.aborted)"
            (["const \x7b done, value \x7d = await reader.read();",
                "if (done) break;",
                "buffer += decoder.decode(value, \x7b stream: true \x7d);",
                "let newline = buffer.indexOf(\"\\n\");"]
              ++ block "while (newline >= 0)" [
                "yield buffer.slice(0, newline).replace(/\\r$/, \"\");",
                "buffer = buffer.slice(newline + 1);",
                "newline = buffer.indexOf(\"\\n\");"])
          ++ ["buffer += decoder.decode();",
            "if (buffer && !signal?.aborted) yield buffer.replace(/\\r$/, \"\");"])
        "finally" [
          "signal?.removeEventListener(\"abort\", abort);",
          "await reader.cancel().catch(() => undefined);"]

def eventDecoder : Lines :=
  ["/**",
    " * Decode a `text/event-stream` body. Each event's `data:` lines are joined",
    " * and parsed as JSON; a `[DONE]` payload ends the stream.",
    " */"]
    ++ block ("export async function* parseSse<T>(response: Response, signal?: AbortSignal): "
        ++ "AsyncGenerator<T>")
      (["let data: string[] = [];"]
        ++ block "for await (const line of lines(response, signal))"
          (block "if (line === \"\")" [
              "if (data.length === 0) continue;",
              "const payload = data.join(\"\\n\");",
              "data = [];",
              "if (payload === \"[DONE]\") return;",
              "yield JSON.parse(payload) as T;",
              "continue;"]
            ++ ["if (line.startsWith(\":\")) continue;"]
            ++ block "if (line === \"data\" || line.startsWith(\"data:\"))" [
              "const value = line.slice(5);",
              "data.push(value.startsWith(\" \") ? value.slice(1) : value);"])
        ++ block "if (data.length > 0)" [
          "const payload = data.join(\"\\n\");",
          "if (payload !== \"[DONE]\") yield JSON.parse(payload) as T;"])

def lineDecoder : Lines :=
  ["/** Decode an `application/x-ndjson` body, one JSON value per non-empty line. */"]
    ++ block ("export async function* parseNdjson<T>(response: Response, signal?: AbortSignal): "
        ++ "AsyncGenerator<T>")
      (block "for await (const line of lines(response, signal))" [
        "if (line.trim() === \"\") continue;",
        "yield JSON.parse(line) as T;"])

end Streaming

def streaming : Lines :=
  Lines.apart [[Lines.header "//" []], Streaming.lineReader, Streaming.eventDecoder,
    Streaming.lineDecoder]

end ClientGen.TypeScript

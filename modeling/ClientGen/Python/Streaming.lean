import ClientGen.Text.Lines

/-! The decoders of streamed responses in Python. -/
namespace ClientGen.Python
namespace Streaming

def imports : Lines :=
  Lines.apart [
    ["\"\"\"Iterators over streamed responses. Each closes its response when done or closed.\"\"\""],
    ["from __future__ import annotations"],
    ["import json",
      "from typing import Any, Iterator"],
    ["import requests"]]

def lineReader : Lines :=
  ["def _lines(response: requests.Response) -> Iterator[str]:",
    "    response.encoding = response.encoding or \"utf-8\"",
    "    for line in response.iter_lines(decode_unicode=True):",
    "        if line is not None:",
    "            yield line"]

def eventDecoder : Lines :=
  ["def iter_sse(response: requests.Response) -> Iterator[Any]:",
    "    \"\"\"Yield one decoded JSON value per server-sent event; ``[DONE]`` ends the stream.\"\"\"",
    "    try:",
    "        data: list[str] = []",
    "        for line in _lines(response):",
    "            if line == \"\":",
    "                if not data:",
    "                    continue",
    "                payload = \"\\n\".join(data)",
    "                data = []",
    "                if payload == \"[DONE]\":",
    "                    return",
    "                yield json.loads(payload)",
    "                continue",
    "            if line.startswith(\":\"):",
    "                continue",
    "            if line == \"data\" or line.startswith(\"data:\"):",
    "                value = line[5:]",
    "                data.append(value[1:] if value.startswith(\" \") else value)",
    "        if data:",
    "            payload = \"\\n\".join(data)",
    "            if payload != \"[DONE]\":",
    "                yield json.loads(payload)",
    "    finally:",
    "        response.close()"]

def lineDecoder : Lines :=
  ["def iter_ndjson(response: requests.Response) -> Iterator[Any]:",
    "    \"\"\"Yield one decoded JSON value per non-empty line.\"\"\"",
    "    try:",
    "        for line in _lines(response):",
    "            if line.strip():",
    "                yield json.loads(line)",
    "    finally:",
    "        response.close()"]

end Streaming

def streaming : Lines :=
  [Lines.header "#" []] ++ Streaming.imports
    ++ ["", ""] ++ Streaming.lineReader
    ++ ["", ""] ++ Streaming.eventDecoder
    ++ ["", ""] ++ Streaming.lineDecoder

end ClientGen.Python
